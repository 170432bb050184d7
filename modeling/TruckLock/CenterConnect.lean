import TruckLock.CenterRelay

/-!
# The connections of the relay

A frame is given to Center inside `webSocketLoop` only, and the event `/` of a
new connection is answered by a broadcast before anything else.
-/
namespace Center

open Firmware Code

/-- A step at which Center is not given a frame. -/
def Unheard (s t : State) : Prop := ∀ payload, t.log ≠ .frame payload :: s.log

theorem Unheard.same {s t : State} (h : t.log = s.log) : Unheard s t := by
  intro payload hl
  exact List.cons_ne_self _ _ (hl.symm.trans h)

theorem Apace.unheard {s t : State} (h : Apace s t) : Unheard s t := by
  rcases h.log with ⟨h, -⟩ | ⟨e, h, he, -⟩
  · exact .same h
  · intro payload hl
    obtain rfl := (List.cons.inj (h.symm.trans hl)).1
    exact Bool.noConfusion he

section

variable (P : Platform)

abbrev Unhears (c : Sketch) : Prop := c.Every fun _ => Unheard

/-- Such code, but for the points at which frames come in. -/
abbrev Deals (c : Sketch) : Prop := Until (fun _ => Unheard) (fun _ _ _ => False) (· = webSocketLoop P) c

theorem unheard_of_passing {c : Sketch} (h : Passing c) : Unhears c := h.mono fun _ _ _ h => h.unheard

theorem unheard_set {f : State → State} (h : ∀ s, (f s).log = s.log) : Unhears (.set f) :=
  fun _ s => .same (h s)

theorem unheard_broadcastTXT (c : Command) (r : Option Request) : Unhears (broadcastTXT c r) := by
  intro _ s payload
  simp [State.emit]

theorem unheard_delay (ms : Nat) : Unhears (delay ms) := unheard_of_passing (passing_delay ms)

theorem unheard_virtualWrite (pin : Nat) (l : State → List Value) : Unhears (virtualWrite P pin l) :=
  unheard_of_passing (passing_virtualWrite P pin l)

theorem unheard_setLed (b : Bool) : Unhears (setLed b) := unheard_set fun _ => rfl

theorem unheard_webSocketEvent (payload : String) : Unhears (webSocketEvent P payload) := by
  unfold webSocketEvent
  split_ifs
  all_goals simp [Code.Every, unheard_set, unheard_broadcastTXT, unheard_delay, unheard_virtualWrite]

theorem unheard_updateWebsocket : Unhears (updateWebsocket P) := by
  have ha := unheard_of_passing (passing_reportAlcohol P)
  have hn := unheard_of_passing (passing_reportNotAlcohol P)
  have hlost : Unhears (.set fun s => s.emit .relayLost) := by simp [Code.set, Code.Every, Unheard, State.emit]
  simp [updateWebsocket, answerIsAlcohol, answerNotAlcohol, answerBlockNow, answerUnblockNow, checkRelay,
    readCountdown, Code.when, Code.Every, unheard_set, unheard_broadcastTXT, unheard_delay, unheard_virtualWrite,
    ha, hn, hlost]

theorem unheard_minuteGate : Unhears minuteGate := by
  have hexpire : Unhears (.set fun s => { s with blockNowState := true }.emit .expired) := by
    simp [Code.set, Code.Every, Unheard, State.emit]
  simp [minuteGate, expire, Code.when, Code.Every, unheard_set, unheard_setLed, hexpire]

theorem unheard_setup : Unhears (setup P) := by
  have hsay : ∀ {e : State → Event}, (∀ s p, e s ≠ .frame p) → Unhears (.set fun s => s.emit (e s)) :=
    fun he _ s p h => he s p (List.cons.inj h).1
  have hb := unheard_of_passing (passing_blynkRun P)
  have hblink : Unhears (.times 7 (.block [setLed false, delay 20, setLed true, delay 20])) := by
    refine every_times ?_ 7
    simp [Code.Every, unheard_setLed, unheard_delay]
  have hwifi : ∀ n, Unhears (testWiFi (setupOnline P) setupOffline n) := by
    intro n
    have hno : Unhears setupOffline := by
      simp [setupOffline, Code.Every, unheard_set, unheard_setLed, unheard_delay]
    induction n with
    | zero => exact hno
    | succ n ih =>
      refine ⟨?_, unheard_delay _, ih⟩
      exact ⟨unheard_setLed _, unheard_delay _, unheard_set fun _ => rfl, unheard_delay _, hblink, hb,
        unheard_delay _, unheard_setLed _, unheard_delay _, trivial⟩
  simp [setup, Code.Every, unheard_set, unheard_delay, unheard_virtualWrite, hsay, hwifi]

theorem parts_deals : Parts P (fun _ => Unheard) (fun _ _ _ => False) (· = webSocketLoop P) where
  apace := fun _ _ _ h => h.unheard
  webSocketLoop := .piece rfl
  isAlcohol := .of_every (unheard_updateWebsocket P).1
  notAlcohol := .of_every (unheard_updateWebsocket P).2.1
  blockNow := .of_every (unheard_updateWebsocket P).2.2.1
  unblockNow := .of_every (unheard_updateWebsocket P).2.2.2.1
  relay := .of_every (unheard_updateWebsocket P).2.2.2.2.1
  minute := .of_every unheard_minuteGate

/-- No frame is at the door, or one is and `webSocketEvent` comes next. -/
inductive Receiving : List Sketch → Prop
  | plain {k : List Sketch} (h : ∀ c ∈ k, Deals P c) : Receiving k
  | frame {k : List Sketch} (payload : String) (h : ∀ c ∈ k, Deals P c) : Receiving (handleFrame P (some payload) :: k)
  | given {k : List Sketch} (payload : String) (h : ∀ c ∈ k, Deals P c) :
      Receiving (.set (fun s => s.emit (.frame payload)) :: webSocketEvent P payload :: k)

theorem receiving_boot : Receiving P [(device P).boot] :=
  .plain (List.forall_mem_singleton.2 (.seq (.of_every (unheard_setup P)) (.forever (parts_deals P).loop)))

variable {P} {i : Env} {k l : List Sketch} {s t : State}

/-- A frame is followed by the call of `webSocketEvent`. -/
theorem receiving_step (h : Receiving P k) (hs : Code.step i k s = some (l, t)) :
    Receiving P l ∧ (Unheard s t ∨ ∃ payload m, t = s.emit (.frame payload) ∧ l = webSocketEvent P payload :: m) := by
  cases h with
  | plain h =>
    by_cases hk : ∃ m, k = webSocketLoop P :: m
    · obtain ⟨m, rfl⟩ := hk
      have hm : ∀ c ∈ m, Deals P c := fun c hc => h c (List.mem_cons_of_mem _ hc)
      obtain ⟨rfl, rfl⟩ :
          (if i.frame.isSome then handleFrame P i.frame :: webSocketLoop P :: m else m) = l ∧ s = t := by
        simpa [webSocketLoop, Code.step] using hs
      refine ⟨?_, .inl (.same rfl)⟩
      cases i.frame with
      | none => exact .plain hm
      | some payload => exact .frame payload h
    · obtain ⟨hl, ht⟩ := Stays.step (.inl h) (fun c m hc hw => hk ⟨m, by rw [hc, hw]⟩) hs id
      rcases hl with hl | ⟨a, m, -, ha⟩
      · refine ⟨.plain hl, .inl ?_⟩
        rcases ht with rfl | ht
        · exact .same rfl
        · exact ht
      · exact absurd ha (not_begins i s)
  | @frame k payload h =>
    obtain ⟨rfl, rfl⟩ : _ = l ∧ s = t := by simpa [handleFrame, Code.step] using hs
    exact ⟨.given payload h, .inl (.same rfl)⟩
  | @given k payload h =>
    obtain ⟨rfl, rfl⟩ : _ = l ∧ _ = t := by simpa [Code.set, Code.step] using hs
    exact ⟨.plain (List.forall_mem_cons.2 ⟨.of_every (unheard_webSocketEvent P payload), h⟩),
      .inr ⟨payload, k, rfl, rfl⟩⟩

/-- The answer to `/`. -/
def resync : Sketch :=
  .ite (fun _ s => s.timedownMinute = 0) (broadcastTXT .blockNow none) (broadcastTXT .unblockNow none)

variable (P) in
/-- `webSocketEvent` has yet to broadcast its answer to `/`. -/
def Resyncing (k : List Sketch) : Prop :=
  ∃ m, k = webSocketEvent P "/" :: m ∨ k = resync :: m ∨ ∃ c, k = broadcastTXT c none :: m

/-- The next statement does nothing. -/
def skips : List Sketch → Bool
  | .skip :: _ => true
  | _ => false

theorem not_resyncing_of_skips (h : skips k = true) : ¬ Resyncing P k := by
  rintro ⟨m, rfl | rfl | ⟨c, rfl⟩⟩
  · simp [webSocketEvent, skips] at h
  · simp [resync, skips] at h
  · simp [broadcastTXT, Code.set, skips] at h

/-- The answer comes before any other event of the program. -/
theorem resyncing_step (h : Resyncing P k) (hs : Code.step i k s = some (l, t)) :
    t = s ∧ Resyncing P l ∨ ∃ c, t = s.emit (.broadcast c none) := by
  obtain ⟨m, rfl | rfl | ⟨c, rfl⟩⟩ := h
  · obtain ⟨rfl, rfl⟩ : resync :: _ = l ∧ s = t := by simpa [webSocketEvent, resync, Code.step] using hs
    exact .inl ⟨rfl, _, .inr (.inl rfl)⟩
  · obtain ⟨rfl, rfl⟩ : (if s.timedownMinute = 0 then broadcastTXT .blockNow none else
        broadcastTXT .unblockNow none) :: m = l ∧ s = t := by
      simpa [resync, Code.step] using hs
    refine .inl ⟨rfl, m, .inr (.inr ?_)⟩
    split
    · exact ⟨_, rfl⟩
    · exact ⟨_, rfl⟩
  · obtain ⟨rfl, rfl⟩ : m = l ∧ _ = t := by simpa [broadcastTXT, Code.set, Code.step] using hs
    exact .inr ⟨c, rfl⟩

/-- What a step of the device does to a stack that waits for frames, unless it is a reset. -/
theorem receiving_next {c : Config State Env} (x : Choice Env Outside) (h : Receiving P c.code) :
    (device P).step x c = (device P).start (restart c.state) ∨
      Receiving P ((device P).step x c).code ∧ (Unheard c.state ((device P).step x c).state ∨
        ∃ payload m, ((device P).step x c).state = c.state.emit (.frame payload) ∧
          ((device P).step x c).code = webSocketEvent P payload :: m) := by
  cases x with
  | run i =>
    cases hp : Code.step i c.code c.state with
    | none => exact .inl (by simp only [Machine.step, hp]; rfl)
    | some p =>
      have hs : (device P).step (.run i) c = ⟨p.1, p.2⟩ := by simp only [Machine.step, hp]
      rw [hs]
      exact .inr (receiving_step h hp)
  | outside r => exact .inr ⟨h, .inl (apace_react r c.state).unheard⟩
  | reset => exact .inl rfl

theorem receiving_device {c : Config State Env} (x : Choice Env Outside) (h : Receiving P c.code) :
    Receiving P ((device P).step x c).code := by
  rcases receiving_next x h with hs | ⟨hs, -⟩
  · rw [hs]
    exact receiving_boot P
  · exact hs

/-- An event of the app, the sensor or the button, or none. -/
def Untimed (s t : State) : Prop := t.log = s.log ∨ ∃ e, t.log = e :: s.log ∧ e.timed = false

/-- While the answer is due the device does nothing else, unless it is reset. -/
theorem resyncing_next {c : Config State Env} (x : Choice Env Outside) (h : Resyncing P c.code) :
    (device P).step x c = (device P).start (restart c.state) ∨
      Resyncing P ((device P).step x c).code ∧ Untimed c.state ((device P).step x c).state ∨
      ∃ k, ((device P).step x c).state = c.state.emit (.broadcast k none) := by
  cases x with
  | run i =>
    cases hp : Code.step i c.code c.state with
    | none => exact .inl (by simp only [Machine.step, hp]; rfl)
    | some p =>
      have hs : (device P).step (.run i) c = ⟨p.1, p.2⟩ := by simp only [Machine.step, hp]
      rw [hs]
      rcases resyncing_step h hp with ⟨ht, hl⟩ | ht
      · exact .inr (.inl ⟨hl, .inl (congrArg State.log ht)⟩)
      · exact .inr (.inr ht)
  | outside r =>
    refine .inr (.inl ⟨h, ?_⟩)
    rcases (apace_react r c.state).log with ⟨hl, -⟩ | ⟨e, hl, he, -⟩
    · exact .inl hl
    · exact .inr ⟨e, hl, he⟩
  | reset => exact .inl rfl

end

end Center
