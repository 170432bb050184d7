import TruckLock.CenterTime
import TruckLock.Calls

/-!
# What Center hears of the relay

Only the handlers of `/`, `relayOpening` and `relayClosing` store
`previousCheckConnectOfCenterVsRelay`, and only the watchdog acts on it.
-/
namespace Center

open Firmware Code

/-- A step that takes no note of the relay. -/
structure Keeps (s t : State) : Prop where
  clock : s.clock ≤ t.clock
  previousCheck : t.previousCheckConnectOfCenterVsRelay = s.previousCheckConnectOfCenterVsRelay
  k : s.k = true → t.k = true

/-- And that does not give it up. -/
structure Deaf (s t : State) : Prop extends Keeps s t where
  log : t.log ≠ .relayLost :: s.log

/-- A step that may take note of the relay. -/
structure Goes (s t : State) : Prop where
  clock : s.clock ≤ t.clock
  previousCheck : t.previousCheckConnectOfCenterVsRelay = s.previousCheckConnectOfCenterVsRelay ∨
    t.previousCheckConnectOfCenterVsRelay = t.millis
  k : s.k = true → t.k = true

/-- And that does not give it up. -/
structure Hears (s t : State) : Prop extends Goes s t where
  log : t.log ≠ .relayLost :: s.log

theorem Keeps.refl (s : State) : Keeps s s := ⟨le_rfl, rfl, id⟩

theorem Keeps.trans {s t u : State} (h : Keeps s t) (h' : Keeps t u) : Keeps s u :=
  ⟨h.clock.trans h'.clock, h'.previousCheck.trans h.previousCheck, h'.k ∘ h.k⟩

theorem Keeps.goes {s t : State} (h : Keeps s t) : Goes s t := ⟨h.clock, .inl h.previousCheck, h.k⟩

theorem Deaf.refl (s : State) : Deaf s s := ⟨.refl s, (List.cons_ne_self _ _).symm⟩

theorem Deaf.put {s t : State} (hc : t.clock = s.clock)
    (hp : t.previousCheckConnectOfCenterVsRelay = s.previousCheckConnectOfCenterVsRelay)
    (hk : s.k = true → t.k = true) (hl : t.log = s.log) : Deaf s t := by
  refine ⟨⟨hc.ge, hp, hk⟩, ?_⟩
  rw [hl]
  exact (List.cons_ne_self _ _).symm

theorem Deaf.say {s t : State} (e : Event) (hc : t.clock = s.clock)
    (hp : t.previousCheckConnectOfCenterVsRelay = s.previousCheckConnectOfCenterVsRelay)
    (hk : s.k = true → t.k = true) (he : e ≠ .relayLost) : Deaf s (t.emit e) :=
  ⟨⟨hc.ge, hp, hk⟩, fun h => he (List.cons.inj h).1⟩

theorem Apace.deaf {s t : State} (h : Apace s t) : Deaf s t := by
  refine ⟨⟨h.clock, congrArg Gates.previousCheckConnectOfCenterVsRelay h.gates,
    fun hk => (congrArg Gates.k h.gates).trans hk⟩, fun hl => ?_⟩
  rcases h.log with ⟨h, -⟩ | ⟨e, h, he, -⟩
  · exact List.cons_ne_self _ _ (hl.symm.trans h)
  · obtain rfl := (List.cons.inj (h.symm.trans hl)).1
    exact Bool.noConfusion he

theorem deaf_iff {s t : State} : Deaf s t ↔ (s.clock ≤ t.clock ∧
    t.previousCheckConnectOfCenterVsRelay = s.previousCheckConnectOfCenterVsRelay ∧ (s.k = true → t.k = true)) ∧
    t.log ≠ .relayLost :: s.log :=
  ⟨fun ⟨⟨hc, hp, hk⟩, hl⟩ => ⟨⟨hc, hp, hk⟩, hl⟩, fun ⟨⟨hc, hp, hk⟩, hl⟩ => ⟨⟨hc, hp, hk⟩, hl⟩⟩

/-- The statement of the handlers that `previousCheckConnectOfCenterVsRelay` comes from. -/
def hear : Sketch := .set fun s => { s with previousCheckConnectOfCenterVsRelay := s.millis }

section

variable (P : Platform)

abbrev Deafens (c : Sketch) : Prop := c.Every fun _ => Deaf

theorem deaf_of_passing {c : Sketch} (h : Passing c) : Deafens c := h.mono fun _ _ _ h => h.deaf

theorem deaf_broadcastTXT (c : Command) (r : Option Request) : Deafens (broadcastTXT c r) :=
  fun _ _ => .say _ rfl rfl id (by simp)

theorem deaf_delay (ms : Nat) : Deafens (delay ms) := deaf_of_passing (passing_delay ms)

theorem deaf_virtualWrite (pin : Nat) (l : State → List Value) : Deafens (virtualWrite P pin l) :=
  deaf_of_passing (passing_virtualWrite P pin l)

theorem deaf_setLed (b : Bool) : Deafens (setLed b) := fun _ _ => .put rfl rfl id rfl

theorem deaf_answerIsAlcohol : Deafens (answerIsAlcohol P) := by
  have hreport : Deafens (reportAlcohol P) := deaf_of_passing (passing_reportAlcohol P)
  simp [answerIsAlcohol, Code.set, Code.when, Code.Every, deaf_broadcastTXT, deaf_delay, hreport, deaf_iff]

theorem deaf_answerNotAlcohol : Deafens (answerNotAlcohol P) := by
  have hreport : Deafens (reportNotAlcohol P) := deaf_of_passing (passing_reportNotAlcohol P)
  simp [answerNotAlcohol, readCountdown, Code.set, Code.when, Code.Every, deaf_broadcastTXT, deaf_delay, hreport,
    deaf_iff]

theorem deaf_answerBlockNow : Deafens answerBlockNow := by
  simp [answerBlockNow, Code.set, Code.when, Code.Every, deaf_broadcastTXT, deaf_iff]

theorem deaf_answerUnblockNow : Deafens answerUnblockNow := by
  simp [answerUnblockNow, readCountdown, Code.set, Code.when, Code.Every, deaf_broadcastTXT, deaf_iff]

theorem deaf_minuteGate : Deafens minuteGate := by
  simp [minuteGate, expire, Code.set, Code.when, Code.Every, deaf_setLed, State.emit, deaf_iff]

theorem deaf_testWiFi (n : Nat) : Deafens (testWiFi (setupOnline P) setupOffline n) := by
  have hblink : Deafens (.times 7 (.block [setLed false, delay 20, setLed true, delay 20])) :=
    every_times (by simp [Code.Every, deaf_setLed, deaf_delay]) 7
  have hflash : ∀ b, Deafens (.set fun s => { s with wifiFlash := b }) := fun _ _ _ => .put rfl rfl id rfl
  have hrun : Deafens (blynkRun P) := deaf_of_passing (passing_blynkRun P)
  induction n with
  | zero => exact ⟨deaf_setLed _, hflash false, deaf_delay _, trivial⟩
  | succ n ih =>
    exact ⟨⟨deaf_setLed _, deaf_delay _, hflash true, deaf_delay _, hblink, hrun, deaf_delay _, deaf_setLed _,
      deaf_delay _, trivial⟩, deaf_delay _, ih⟩

theorem deaf_setup : Deafens (setup P) := by
  simp [setup, Code.set, Code.Every, deaf_delay, deaf_virtualWrite, deaf_testWiFi, State.emit, deaf_iff]

/-- What the watchdog does once it has found the connection lost. -/
def giveUp : Sketch :=
  .block [
    .set fun s => s.emit .relayLost,
    delay 50,
    virtualWrite P 6 fun _ => [.text "   Lỗi kết nối với Relay"],
    .get (fun _ s => s.millis) fun t =>
      .whilst (fun _ s => elapsed s.millis t.toNat < 1000) .reset]

def lost (s : State) : Bool :=
  25000 < elapsed s.millis s.previousCheckConnectOfCenterVsRelay && s.k

theorem checkRelay_eq : checkRelay P = .ite (fun _ s => lost s) (giveUp P) .skip := rfl

theorem keeps_giveUp : (giveUp P).Every fun _ => Keeps :=
  ⟨fun _ _ => ⟨le_rfl, rfl, id⟩, (deaf_delay 50).mono fun _ _ _ h => h.toKeeps,
    (deaf_virtualWrite P 6 _).mono fun _ _ _ h => h.toKeeps, fun _ => trivial, trivial⟩

/-- What the watchdog goes by is stored, or it goes by it. -/
def Watches (c : Sketch) : Prop := c = hear ∨ c = checkRelay P

abbrev Minds (c : Sketch) : Prop := Until (fun _ => Deaf) (fun _ _ _ => False) (Watches P) c

theorem minds_handleFrame (payload : String) : Minds P (handleFrame P (some payload)) := by
  have hdeaf : ∀ {c : Sketch}, Deafens c → Minds P c := fun hc => .of_every hc
  refine .seq (.act fun _ _ => .say _ rfl rfl id (by simp)) ?_
  unfold webSocketEvent
  split
  · exact .seq (.act fun _ _ => .put rfl rfl id rfl) (.seq (.piece (.inl rfl)) .skip)
  split
  · exact .seq (.act fun _ _ => .put rfl rfl id rfl) (.seq (.piece (.inl rfl)) .skip)
  split
  · refine .seq (hdeaf ⟨deaf_broadcastTXT _ _, deaf_broadcastTXT _ _⟩) (.seq (.piece (.inl rfl)) (hdeaf ?_))
    exact ⟨fun _ _ => .put rfl rfl id rfl, deaf_delay _, deaf_virtualWrite P _ _, deaf_delay _,
      fun _ _ => .put rfl rfl (fun _ => rfl) rfl, trivial⟩
  · exact .skip

theorem parts_minds : Parts P (fun _ => Deaf) (fun _ _ _ => False) (Watches P) :=
  ⟨fun _ _ _ h => h.deaf, until_webSocketLoop P (minds_handleFrame P), .of_every (deaf_answerIsAlcohol P),
    .of_every (deaf_answerNotAlcohol P), .of_every deaf_answerBlockNow, .of_every deaf_answerUnblockNow,
    .piece (.inr rfl), .of_every deaf_minuteGate⟩

/-- The watchdog is not at work. -/
def Attentive (k : List Sketch) : Prop := ∀ a ∈ k, Minds P a

/-- The rest of what the watchdog does, if it is at work, in front of other code. -/
def Acting (k : List Sketch) : Prop :=
  ∃ l m, k = l ++ m ∧ (∀ a ∈ l, a.Every fun _ => Keeps) ∧ Attentive P m

theorem attentive_boot : Attentive P [(device P).boot] :=
  List.forall_mem_singleton.2 (.seq (.of_every (deaf_setup P)) (.forever (parts_minds P).loop))

variable {P} {i : Env} {k l : List Sketch} {s t : State}

theorem Attentive.acting (h : Attentive P k) : Acting P k := ⟨[], k, rfl, by simp, h⟩

/-- A statement takes note of the relay, or it has an effect in `R`. -/
def Notes (R : State → State → Prop) (k : List Sketch) (s t : State) : Prop :=
  R s t ∨ (∃ m, k = hear :: m) ∧ t = { s with previousCheckConnectOfCenterVsRelay := s.millis }

theorem attentive_step (h : Attentive P k) (hl : ∀ m, k = checkRelay P :: m → lost s = false)
    (hs : Code.step i k s = some (l, t)) : Attentive P l ∧ Notes Deaf k s t := by
  by_cases hk : ∃ c m, k = c :: m ∧ Watches P c
  · obtain ⟨c, m, rfl, rfl | rfl⟩ := hk
    · obtain ⟨rfl, rfl⟩ : m = l ∧ _ = t := by simpa [hear, Code.set, Code.step] using hs
      exact ⟨fun a ha => h a (List.mem_cons_of_mem _ ha), .inr ⟨⟨_, rfl⟩, rfl⟩⟩
    · have hst : Code.step i (checkRelay P :: m) s = some (.skip :: m, s) := by
        rw [checkRelay_eq, Code.step, hl m rfl]
        rfl
      rw [hst] at hs
      obtain ⟨rfl, rfl⟩ : .skip :: m = l ∧ s = t := by simpa using hs
      exact ⟨List.forall_mem_cons.2 ⟨.skip, fun a ha => h a (List.mem_cons_of_mem _ ha)⟩, .inl (.refl s)⟩
  · obtain ⟨hst, ht⟩ := Stays.step (.inl h) (fun c m hc hK => hk ⟨c, m, hc, hK⟩) hs id
    rcases hst with hst | ⟨a, m, -, ha⟩
    · refine ⟨hst, .inl ?_⟩
      rcases ht with rfl | ht
      · exact .refl t
      · exact ht
    · exact absurd ha (not_begins i s)

theorem acting_step (h : Acting P k) (hs : Code.step i k s = some (l, t)) :
    Acting P l ∧ Notes Keeps k s t := by
  obtain ⟨a, m, rfl, ha, hm⟩ := h
  cases a with
  | nil =>
    by_cases hk : ∃ n, m = checkRelay P :: n
    · obtain ⟨n, rfl⟩ := hk
      obtain ⟨rfl, rfl⟩ : (if lost s then giveUp P else .skip) :: n = l ∧ s = t := by
        simpa [checkRelay_eq, Code.step] using hs
      refine ⟨⟨[_], n, rfl, List.forall_mem_singleton.2 ?_, fun a ha => hm a (List.mem_cons_of_mem _ ha)⟩,
        .inl (.refl s)⟩
      split
      · exact keeps_giveUp P
      · trivial
    · obtain ⟨hl, ht⟩ := attentive_step hm (fun n hn => absurd ⟨n, hn⟩ hk) hs
      exact ⟨hl.acting, ht.imp_left Deaf.toKeeps⟩
  | cons c a =>
    rw [Code.step_append] at hs
    obtain ⟨p, hp, hpl⟩ := Option.map_eq_some_iff.1 hs
    obtain ⟨rfl, rfl⟩ : p.1 ++ m = l ∧ p.2 = t := by simpa using hpl
    obtain ⟨hk, ht⟩ := Code.Every.step ha hp
    refine ⟨⟨p.1, m, rfl, hk, hm⟩, .inl ?_⟩
    rcases ht with ht | ht
    · rw [ht]
      exact .refl s
    · exact ht

/-- A step of the device that is no reset, by what its statements do and what happens beside them. -/
theorem device_next {A : List Sketch → Prop} {R : State → State → Prop} {c : Config State Env}
    (x : Choice Env Outside) (hA : A c.code)
    (hrun : ∀ i l t, x = .run i → Code.step i c.code c.state = some (l, t) → A l ∧ R c.state t)
    (hreact : ∀ r, R c.state (react r c.state)) :
    (device P).step x c = (device P).start (restart c.state) ∨
      A ((device P).step x c).code ∧ R c.state ((device P).step x c).state := by
  cases x with
  | run i =>
    cases hp : Code.step i c.code c.state with
    | none => exact .inl (by simp only [Machine.step, hp]; rfl)
    | some p =>
      have hs : (device P).step (.run i) c = ⟨p.1, p.2⟩ := by simp only [Machine.step, hp]
      rw [hs]
      exact .inr (hrun i p.1 p.2 rfl hp)
  | outside r => exact .inr ⟨hA, hreact r⟩
  | reset => exact .inl rfl

theorem goes_hear (s : State) :
    Goes s { s with previousCheckConnectOfCenterVsRelay := s.millis } :=
  ⟨le_rfl, .inr rfl, id⟩

theorem acting_next {c : Config State Env} (x : Choice Env Outside) (h : Acting P c.code) :
    (device P).step x c = (device P).start (restart c.state) ∨
      Acting P ((device P).step x c).code ∧ Goes c.state ((device P).step x c).state := by
  refine device_next x h (fun i l t _ hs => ?_) fun r => (apace_react r c.state).deaf.goes
  obtain ⟨ha, ht | ⟨-, rfl⟩⟩ := acting_step h hs
  · exact ⟨ha, ht.goes⟩
  · exact ⟨ha, goes_hear _⟩

/-- The same while Center takes no note of the relay. -/
theorem unheard_next {c : Config State Env} (x : Choice Env Outside) (h : Acting P c.code)
    (hx : ∀ i k, x = .run i → c.code ≠ hear :: k) :
    (device P).step x c = (device P).start (restart c.state) ∨
      Acting P ((device P).step x c).code ∧ Keeps c.state ((device P).step x c).state := by
  refine device_next x h (fun i l t hi hs => ?_) fun r => (apace_react r c.state).deaf.toKeeps
  obtain ⟨ha, ht | ⟨⟨m, hm⟩, -⟩⟩ := acting_step h hs
  · exact ⟨ha, ht⟩
  · exact absurd hm (hx i m hi)

/-- The same while the watchdog has nothing to do. -/
theorem attentive_next {c : Config State Env} (x : Choice Env Outside) (h : Attentive P c.code)
    (hl : lost c.state = false) :
    (device P).step x c = (device P).start (restart c.state) ∨
      Attentive P ((device P).step x c).code ∧ Hears c.state ((device P).step x c).state := by
  refine device_next x h (fun i l t _ hs => ?_) fun r =>
    ⟨(apace_react r c.state).deaf.goes, (apace_react r c.state).deaf.log⟩
  obtain ⟨ha, ht | ⟨-, rfl⟩⟩ := attentive_step h (fun _ _ => hl) hs
  · exact ⟨ha, ht.goes, ht.log⟩
  · exact ⟨ha, goes_hear _, (List.cons_ne_self _ _).symm⟩

/-- The watchdog does not hear anything while it is at work. -/
theorem attentive_of_hear (h : Acting P (hear :: k)) : Attentive P (hear :: k) := by
  obtain ⟨l, m, hk, hl, hm⟩ := h
  cases l with
  | nil =>
    rw [hk]
    exact hm
  | cons a l =>
    obtain rfl : hear = a := (List.cons.inj hk).1
    have hkeeps := hl hear List.mem_cons_self {} { clock := 1, rom := fun _ => 0, flash := fun _ => 0 }
    exact absurd hkeeps.previousCheck (by decide)

end

end Center
