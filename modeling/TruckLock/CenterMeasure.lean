import TruckLock.CenterBlynk

/-!
# offMeasureAlcoholConcentration.h

The button interrupt, which runs between two statements of the program, and
the function that `loop` calls while a test is on. `readIsAlcohol` and the
interrupt share variables, so its comparisons load their operands one by one.
-/
namespace Center

open Firmware

variable (P : Platform)

/-- `while (millis()-t<100) t1 = millis();`, and the clock when `t1` was last set. When the
rounds are used up the loop leaves at the first millisecond at which its condition fails. -/
def spin (t : Nat) : List (Nat × Nat) → Option Nat → State → State × Option Nat
  | [], last, s => (s.wait (100 - elapsed s.millis t), last)
  | (a, b) :: rounds, last, s =>
    if elapsed (s.wait a).millis t < 100 then
      spin t rounds (some (s.clock + a + b))
        { s.wait (a + b) with t1 := (s.wait (a + b)).millis }
    else (s.wait a, last)

def measureAlcoholConcentration (rounds : List (Nat × Nat)) (s : State) : State :=
  let (s, last) := spin s.millis rounds none s
  { s with
    tLaymau := s.millis, camTXPin := false, MAX := 0, MIN := 1024, alcoholFlash := true
  }.emit (.pressed last s.clock)

/-- What the waiting loop leaves: only the clock and `t1` change, and `last` tells `t1`. -/
theorem spin_spec (t : Nat) (rounds : List (Nat × Nat)) (last : Option Nat) (s : State) :
    ∃ c x, (spin t rounds last s).1 = { s with clock := c, t1 := x } ∧ s.clock ≤ c ∧
      ((spin t rounds last s).2 = last ∧ x = s.t1 ∨
        ∃ b, (spin t rounds last s).2 = some b ∧ x = b % 2 ^ 32 ∧ s.clock ≤ b ∧ b ≤ c) := by
  induction rounds generalizing last s with
  | nil => exact ⟨_, s.t1, rfl, Nat.le_add_right _ _, .inl ⟨rfl, rfl⟩⟩
  | cons p rounds ih =>
    obtain ⟨a, b⟩ := p
    rw [spin]
    split
    · obtain ⟨c, x, hs, hc, hx⟩ := ih (some (s.clock + a + b))
        { s.wait (a + b) with t1 := (s.wait (a + b)).millis }
      simp only [State.wait, State.millis] at hc hx
      refine ⟨c, x, by rw [hs]; rfl, by omega, .inr ?_⟩
      rcases hx with ⟨hl, rfl⟩ | ⟨d, hl, hx, hd, hdc⟩
      · exact ⟨s.clock + a + b, hl, by rw [Nat.add_assoc], by omega, by omega⟩
      · exact ⟨d, hl, hx, by omega, hdc⟩
    · exact ⟨_, s.t1, rfl, Nat.le_add_right _ _, .inl ⟨rfl, rfl⟩⟩

/-- A press in one record; `last` is the clock when it set `t1`, if it did. -/
theorem press_spec (rounds : List (Nat × Nat)) (s : State) :
    ∃ last c x, measureAlcoholConcentration rounds s =
        { s with
          clock := c, t1 := x, tLaymau := c % 2 ^ 32, camTXPin := false, MAX := 0, MIN := 1024
          alcoholFlash := true, log := .pressed last c :: s.log } ∧ s.clock ≤ c ∧
      (last = none ∧ x = s.t1 ∨ ∃ b, last = some b ∧ x = b % 2 ^ 32 ∧ s.clock ≤ b ∧ b ≤ c) := by
  obtain ⟨c, x, hs, hc, hx⟩ := spin_spec s.millis rounds none s
  refine ⟨(spin s.millis rounds none s).2, c, x, ?_, hc, hx⟩
  rw [measureAlcoholConcentration]
  simp only [hs]
  rfl

/-- One sample: the analog reading, the camera's answer and the concentration so far. -/
def sample : Sketch :=
  .block [
    .set fun s => { s with tLaymau := s.millis },
    .act fun i s => { s with current := i.adc }.emit (.analog i.adc),
    .get (fun _ s => s.current) fun current => .block [
      .when (fun _ s => s.MAX < current) (.set fun s => { s with MAX := current }),
      .when (fun _ s => current < s.MIN) (.set fun s => { s with MIN := current })],
    .act fun i s => { s with camLevel := i.camRX }.emit (.camera i.camRX),
    .when (fun _ s => !s.camLevel) (.set fun s => { s with isMatchFaceID := true }),
    .set fun s => { s with milligramsPerLiter := P.milligrams s.MAX }]

/-- The three outcomes for a recognised driver. -/
def judge (downLimit upLimit threshold : Int) : Sketch :=
  .get (fun _ s => s.MAX) fun MAX =>
    .ite (fun _ _ => upLimit < MAX - threshold)
      (.set fun s => { s with isAlcoholState := true }.emit
        (.alcohol ⟨s.isMatchFaceID, MAX, s.MIN, downLimit, upLimit, threshold⟩))
      (.get (fun _ s => s.MIN) fun MIN =>
        .ite (fun _ _ => threshold - MIN < downLimit)
          (.seq
            (.set fun s => s.emit
              (.blowHarder ⟨s.isMatchFaceID, MAX, MIN, downLimit, upLimit, threshold⟩))
            (delay 2000))
          (.set fun s => { s with notAlcoholState := true }.emit
            (.notAlcohol ⟨s.isMatchFaceID, MAX, MIN, downLimit, upLimit, threshold⟩)))

/-- The end of a test. -/
def close (downLimit upLimit threshold : Int) : Sketch :=
  .block [
    .set fun s => { s with alcoholFlash := false },
    .get (fun _ s => s.MAX) fun MAX => .get (fun _ s => s.MIN) fun MIN => .block [
      delay 10,
      virtualWrite P 35 fun s => [.text "Max = ", .int MAX, .text "| Min = ", .int MIN,
        .text " ||| ", .real s.milligramsPerLiter 8],
      delay 20],
    .ite (fun _ s => s.isMatchFaceID) (judge downLimit upLimit threshold)
      (.seq (.set fun s => s.emit .unknownDriver) (delay 2000)),
    .set fun s => { s with camTXPin := true },
    .set fun s => { s with isMatchFaceID := false }]

def readIsAlcohol (downLimit upLimit threshold : Int) : Sketch :=
  .block [
    .set fun s => { s with now := s.millis }.emit (.called s.clock),
    .ite (fun _ s => elapsed s.now s.t1 < 7000)
      (.seq (.set fun s => s.emit .sampling)
        (.get (fun _ s => s.millis) fun now =>
          .when (fun _ s => 200 < elapsed now.toNat s.tLaymau) (sample P)))
      (close P downLimit upLimit threshold),
    .set fun s => s.emit .returned]

end Center
