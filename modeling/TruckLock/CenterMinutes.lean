import TruckLock.CenterRequests
import TruckLock.CenterTime

/-!
# The minutes of the countdown

After an unlocking, as long as no further request is answered, only the gate
of the countdown changes `timedownMinute`. The gate compares 32-bit clock
readings; how late its evaluations are decides how long the countdown takes.
-/
namespace Center

open Firmware Code Spec

/-- What the gate reads and writes, with the events that raise `blockNowState`. -/
structure Minute where
  clock : Nat
  previousOneMinuteCounter : Nat
  timedownMinute : Int
  BLOCK : Bool
  blockNowState : Bool
  hist : List Event

def State.minute (s : State) : Minute where
  clock := s.clock
  previousOneMinuteCounter := s.previousOneMinuteCounter
  timedownMinute := s.timedownMinute
  BLOCK := s.BLOCK
  blockNowState := s.blockNowState
  hist := s.log.filter (Event.raises .blockNow)

namespace Minute

def due (v : Minute) : Prop :=
  59953 < elapsed (v.clock % 2 ^ 32) v.previousOneMinuteCounter ∧ v.timedownMinute ≠ 0

instance (v : Minute) : Decidable v.due := inferInstanceAs (Decidable (_ ∧ _))

/-- One minute less. -/
def less (v : Minute) : Minute :=
  { v with previousOneMinuteCounter := v.clock % 2 ^ 32, timedownMinute := v.timedownMinute - 1 }

def expire (v : Minute) : Minute :=
  { v with blockNowState := true, BLOCK := true, hist := .expired :: v.hist }

/-- One evaluation of the gate. -/
def tick (v : Minute) : Minute :=
  if v.due then if v.less.timedownMinute = 0 then v.less.expire else v.less else v

/-- Beside the program only time passes. -/
def Later (v w : Minute) : Prop := v.clock ≤ w.clock ∧ w = { v with clock := w.clock }

/-- As in `f`, where `p` holds, unless the clock has gone on since. -/
def At (f : Minute) (p : Prop) (v : Minute) : Prop := f.clock ≤ v.clock ∧ (v.clock = f.clock → v = f ∧ p)

section

variable {Q : Minute → Prop} {f : Minute} {p q : Prop}

theorem steady_at : (call Q : Spec Env Minute).Steady Later (At f p) where
  inv _ _ := trivial
  rel := by
    rintro v w ⟨hc, hv⟩ ⟨hvw, hw⟩
    refine ⟨hc.trans hvw, fun h => ?_⟩
    obtain ⟨hvf, hp⟩ := hv (by omega)
    refine ⟨?_, hp⟩
    rw [hw, hvf, h]

/-- A statement that takes no time. -/
theorem amid_put {a : State → State} (g : Minute → Minute) (ha : ∀ s, (a s).minute = g s.minute)
    (hg : ∀ v, (g v).clock = v.clock) :
    (call Q : Spec Env Minute).Amid Later State.minute (At f p) (.set a) (At (g f) p) := by
  refine Amid.step steady_at fun i s hs _ => ⟨trivial, ?_⟩
  rw [ha s]
  refine ⟨by rw [hg, hg]; exact hs.1, fun h => ?_⟩
  obtain ⟨hv, hp⟩ := hs.2 (by rw [hg, hg] at h; exact h)
  exact ⟨by rw [hv], hp⟩

/-- A test of the minutes. -/
theorem amid_when {c : Env → State → Bool} {a : Sketch} {g : Minute} (q : Minute → Prop)
    (hc : ∀ i s, c i s = true ↔ q s.minute) (hg : g.clock = f.clock) (hf : p → ¬ q f → f = g)
    (h : (call Q : Spec Env Minute).Amid Later State.minute (At f (p ∧ q f)) a (At g p)) :
    (call Q : Spec Env Minute).Amid Later State.minute (At f p) (.when c a) (At g p) := by
  refine Amid.when (T := At f (p ∧ q f)) steady_at (fun i s hs ht => ⟨hs.1, fun h => ?_⟩)
    (fun i s hs ht => ?_) steady_at h
  · obtain ⟨hv, hp⟩ := hs.2 h
    have hq := (hc i s).1 ht
    exact ⟨hv, hp, by rw [← hv]; exact hq⟩
  · refine ⟨hg.trans_le hs.1, fun h => ?_⟩
    obtain ⟨hv, hp⟩ := hs.2 (h.trans hg)
    refine ⟨hv.trans (hf hp fun hq => ?_), hp⟩
    rw [(hc i s).2 (by rw [hv]; exact hq)] at ht
    exact Bool.noConfusion ht

theorem tick_clock (f : Minute) : f.tick.clock = f.clock := by
  rw [tick]
  split
  · split <;> rfl
  · rfl

theorem tick_of_due {v : Minute} (h : v.due) : v.tick =
    { v with
      previousOneMinuteCounter := v.clock % 2 ^ 32, timedownMinute := v.timedownMinute - 1
      BLOCK := v.BLOCK || decide (v.timedownMinute = 1)
      blockNowState := v.blockNowState || decide (v.timedownMinute = 1)
      hist := if v.timedownMinute = 1 then .expired :: v.hist else v.hist } := by
  have h0 : v.less.timedownMinute = 0 ↔ v.timedownMinute = 1 := by
    show v.timedownMinute - 1 = 0 ↔ _
    omega
  rw [tick, if_pos h]
  by_cases h1 : v.timedownMinute = 1
  · rw [if_pos (h0.2 h1), if_pos h1, decide_eq_true h1, Bool.or_true, Bool.or_true]
    rfl
  · rw [if_neg (mt h0.1 h1), if_neg h1, decide_eq_false h1, Bool.or_false, Bool.or_false]
    rfl

theorem amid_minuteGate :
    (call Q : Spec Env Minute).Amid Later State.minute (At f True) minuteGate (At f.tick True) := by
  have hexp : f.due → f.less.timedownMinute = 0 → f.less.expire = f.tick := fun hd h0 => by
    rw [tick, if_pos hd, if_pos h0]
  have hless : f.due → ¬ f.less.timedownMinute = 0 → f.less = f.tick := fun hd h0 => by
    rw [tick, if_pos hd, if_neg h0]
  have hclock := tick_clock f
  refine amid_when due (fun i s => ?_) hclock (fun _ hd => by rw [tick, if_neg hd]) ?_
  · simp only [Bool.and_eq_true, decide_eq_true_eq]
    rfl
  refine .seq (amid_put (fun v => { v with previousOneMinuteCounter := v.clock % 2 ^ 32 })
    (fun _ => rfl) fun _ => rfl) (.seq (amid_put (fun v => { v with timedownMinute := v.timedownMinute - 1 })
    (fun _ => rfl) fun _ => rfl) (.seq (R := fun s => At f.tick (True ∧ f.due) s.minute) ?_
    (Amid.skip steady_at fun v hv => ⟨hv.1, fun h => ⟨(hv.2 h).1, trivial⟩⟩)))
  refine amid_when (f := f.less) (g := f.tick) (fun v => v.timedownMinute = 0) (fun i s => ?_) hclock
    (fun hd h0 => hless hd.2 h0) ?_
  · simp only [decide_eq_true_eq]
    rfl
  · refine .seq (amid_put (fun v => { v with blockNowState := true, hist := .expired :: v.hist })
      (fun _ => rfl) fun _ => rfl) (.seq (amid_put id (fun _ => rfl) fun _ => rfl) (.seq
      (amid_put (fun v => { v with BLOCK := true }) (fun _ => rfl) fun _ => rfl)
      (Amid.skip steady_at fun v hv => ⟨hclock.trans_le hv.1, fun h => ?_⟩)))
    obtain ⟨hv, ⟨-, hd⟩, h0⟩ := hv.2 (h.trans hclock)
    exact ⟨hv.trans (hexp hd h0), trivial, hd⟩

end

end Minute

theorem minute_react (r : Outside) (s : State) : Minute.Later s.minute (react r s).minute := by
  cases r with
  | wait ms => exact ⟨Nat.le_add_right _ _, rfl⟩
  | button spin =>
    obtain ⟨last, c, x, hs, hc, -⟩ := press_spec spin s
    simp only [react]
    split
    · rw [hs]
      exact ⟨hc, rfl⟩
    · exact ⟨le_rfl, rfl⟩

/-- An evaluation during which the clock stands still. -/
theorem tick_of_finish {ev : Run} {s t : State} (h : finish react ev [minuteGate] s = some t)
    (hc : t.clock = s.clock) : t.minute = s.minute.tick := by
  have ht : Minute.At s.minute.tick True t.minute :=
    Triple.finish (Minute.amid_minuteGate (Q := Minute.At s.minute.tick True)) minute_react
      Minute.steady_at.stable (fun _ hs => hs) (fun _ _ _ _ _ _ _ => trivial)
      ⟨le_rfl, fun _ => ⟨rfl, trivial⟩⟩ h
  exact (ht.2 (hc.trans (Minute.tick_clock s.minute).symm)).1

/-- A step after which the countdown stands as before. -/
structure Stands (s t : State) : Prop where
  clock : s.clock ≤ t.clock
  previousOneMinuteCounter : t.previousOneMinuteCounter = s.previousOneMinuteCounter
  timedownMinute : t.timedownMinute = s.timedownMinute
  BLOCK : t.BLOCK = s.BLOCK
  log : ∃ l, t.log = l ++ s.log ∧ l.count .expired = 0 ∧
    t.blockNowState = (s.blockNowState || l.any (Event.raises .blockNow))

theorem Stands.put {s t : State} (h : t.minute = s.minute) (hl : t.log = s.log) : Stands s t := by
  refine ⟨(congrArg Minute.clock h).ge, congrArg Minute.previousOneMinuteCounter h,
    congrArg Minute.timedownMinute h, congrArg Minute.BLOCK h, [], hl, rfl, ?_⟩
  rw [List.any_nil, Bool.or_false]
  exact congrArg Minute.blockNowState h

theorem Stands.refl (s : State) : Stands s s := .put rfl rfl

/-- The statement logs an event of another kind. -/
theorem Stands.say (s : State) (e : Event) (he : e.raises .blockNow = false) : Stands s (s.emit e) := by
  refine ⟨le_rfl, rfl, rfl, rfl, [e], rfl, ?_, by simp [he, State.emit]⟩
  cases e <;> first | rfl | simp [Event.raises] at he

theorem Apace.stands {s t : State} (h : Apace s t) : Stands s t := by
  refine ⟨h.clock, congrArg Gates.previousOneMinuteCounter h.gates, congrArg Gates.timedownMinute h.gates,
    congrArg Gates.BLOCK h.gates, ?_⟩
  rcases h.log with ⟨hl, hb⟩ | ⟨e, hl, he, hb⟩
  · exact ⟨[], hl, rfl, by simp [hb]⟩
  · refine ⟨[e], hl, ?_, ?_⟩
    · cases e <;> first | rfl | simp [Event.timed] at he
    · rw [hb]
      cases e <;> first | rfl | simp [Event.timed] at he

/-- A request is answered. -/
def Processed (s t : State) : Prop := ∃ c r, t.log = .broadcast c (some r) :: s.log

section

variable (P : Platform)

abbrev Standing (c : Sketch) : Prop := c.Every fun _ => Stands

theorem standing_handleFrame (payload : String) : Standing (handleFrame P (some payload)) := by
  have hsay : ∀ c, Standing (broadcastTXT c none) := fun c _ s => .say s _ rfl
  have hput : ∀ {f : State → State}, (∀ s, Stands s (f s)) → Standing (.set f) := fun hf _ s => hf s
  have hpass : ∀ {c : Sketch}, Passing c → Standing c := fun hc => hc.mono fun _ _ _ h => h.stands
  refine ⟨fun _ s => .say s _ rfl, ?_⟩
  unfold webSocketEvent
  split
  · exact ⟨hpass fun _ _ => .put rfl rfl rfl rfl, hput fun _ => .put rfl rfl, trivial⟩
  split
  · exact ⟨hpass fun _ _ => .put rfl rfl rfl rfl, hput fun _ => .put rfl rfl, trivial⟩
  split
  · exact ⟨⟨hsay _, hsay _⟩, hput fun _ => .put rfl rfl, hput fun _ => .put rfl rfl, hpass (passing_delay _),
      hpass (passing_virtualWrite P _ _), hpass (passing_delay _), hput fun _ => .put rfl rfl, trivial⟩
  · trivial

theorem standing_checkRelay : Standing (checkRelay P) :=
  ⟨⟨fun _ s => .say s _ rfl, (passing_delay _).mono fun _ _ _ h => h.stands,
    (passing_virtualWrite P _ _).mono fun _ _ _ h => h.stands, fun _ => trivial, trivial⟩, trivial⟩

theorem parts_minute : Parts P (fun _ => Stands) (fun _ => Processed) (· = minuteGate) := by
  have hask : ∀ {p : Env → State → Bool} (c : Command) (r : Request) (l : List Sketch),
      Until (fun _ => Stands) (fun _ => Processed) (· = minuteGate)
        (.when p (.block (broadcastTXT c (some r) :: l))) :=
    fun c r l => .when (.begins (.seq (.act fun _ s => ⟨c, r, rfl⟩)))
  exact ⟨fun _ _ _ h => h.stands, until_webSocketLoop P fun payload => .of_every (standing_handleFrame P payload),
    hask _ _ _, hask _ _ _, hask _ _ _, hask _ _ _, .of_every (standing_checkRelay P), .piece rfl⟩

end

/-- An unlocking has just stored `previousOneMinuteCounter`, with `N` minutes to go. -/
structure Unlocked (N : Nat) (s : State) : Prop where
  timedownMinute : s.timedownMinute = N
  previousOneMinuteCounter : s.previousOneMinuteCounter = s.millis
  BLOCK : s.BLOCK = false

section

variable (P : Platform)

/-- The code behind the last statement of the answer that unlocks: `answerNotAlcohol` for a sober
driver, `answerUnblockNow` otherwise. -/
def afterUnlock (online sober : Bool) : List Sketch :=
  [.skip, .block (if sober then [answerBlockNow, answerUnblockNow, checkRelay P] else [checkRelay P]),
    .skip, .block [statusGate P online, minuteGate, alcoholGate P, blynkRun P, timerRun P, delay 10],
    .forever (loop P)]

/-- A step that does not evaluate the gate, processes no request and does not reset the device. -/
structure Elsewhere (x : Choice Env Outside) (c : Config State Env) : Prop where
  gate : ∀ l i, c.code = minuteGate :: l → x ≠ .run i
  request : ¬ Processed c.state ((device P).step x c).state
  lasts : x ≠ .reset ∧ ∀ i, x = .run i → (Code.step i c.code c.state).isSome = true

/-- Runs from `c₀` in which the gate is evaluated at most `d` ms after `c₀` and after its last
evaluation; `evaluated` is the time of the last one, and `ticks` are the times, newest first, of
those that changed `timedownMinute`. -/
inductive Paced (d : Nat) (c₀ : Config State Env) : Run → Nat → List Nat → Prop where
  | start : Paced d c₀ [] c₀.state.clock []
  | between {xs : Run} {evaluated : Nat} {ticks : List Nat} (h : Paced d c₀ xs evaluated ticks)
      (x : Choice Env Outside) (hx : Elsewhere P x ((device P).exec xs c₀)) :
      Paced d c₀ (xs ++ [x]) evaluated ticks
  | gate {xs : Run} {evaluated : Nat} {ticks : List Nat} (h : Paced d c₀ xs evaluated ticks)
      {s t : State} {l : List Sketch} {ys : Run} (hc : (device P).exec xs c₀ = ⟨minuteGate :: l, s⟩)
      (hd : s.clock ≤ evaluated + d) (hf : finish react ys [minuteGate] s = some t)
      (ht : t.clock = s.clock) :
      Paced d c₀ (xs ++ ys) s.clock
        (if t.timedownMinute = s.timedownMinute then ticks else s.clock :: ticks)

end

/-- Each tick comes at least 59954 ms and at most 59953 + `d` ms after the one before; the first is
counted from `T`. -/
def Spaced (d T : Nat) : List Nat → Prop
  | [] => True
  | tick :: ticks => ticks.headD T + 59954 ≤ tick ∧ tick ≤ ticks.headD T + 59953 + d ∧ Spaced d T ticks

theorem Spaced.bounds {d T : Nat} {ticks : List Nat} (h : Spaced d T ticks) :
    T + ticks.length * 59954 ≤ ticks.headD T ∧ ticks.headD T ≤ T + ticks.length * (59953 + d) := by
  induction ticks with
  | nil => simp
  | cons tick ticks ih =>
    obtain ⟨hlo, hhi, hs⟩ := h
    obtain ⟨h1, h2⟩ := ih hs
    rw [List.length_cons, List.headD_cons, Nat.succ_mul, Nat.succ_mul]
    refine ⟨?_, ?_⟩
    · calc
        T + (ticks.length * 59954 + 59954) = T + ticks.length * 59954 + 59954 := (Nat.add_assoc ..).symm
        _ ≤ ticks.headD T + 59954 := Nat.add_le_add_right h1 _
        _ ≤ tick := hlo
    · calc
        tick ≤ ticks.headD T + (59953 + d) := by rw [← Nat.add_assoc]; exact hhi
        _ ≤ T + ticks.length * (59953 + d) + (59953 + d) := Nat.add_le_add_right h2 _
        _ = T + (ticks.length * (59953 + d) + (59953 + d)) := Nat.add_assoc ..

/-- The countdown after some of its `N` minutes, `T` being the time of the unlocking. -/
structure Counted (N d : Nat) (s₀ s : State) (evaluated : Nat) (ticks : List Nat) : Prop where
  spaced : Spaced d s₀.clock ticks
  count : ticks.length ≤ N
  timedownMinute : s.timedownMinute = N - ticks.length
  previousOneMinuteCounter : s.previousOneMinuteCounter = ticks.headD s₀.clock % 2 ^ 32
  waiting : ticks.length < N → evaluated ≤ ticks.headD s₀.clock + 59953
  evaluated : ticks.headD s₀.clock ≤ evaluated ∧ evaluated ≤ s.clock
  BLOCK : s.BLOCK = decide (ticks.length = N)
  log : ∃ l, s.log = l ++ s₀.log ∧ l.count .expired = (if ticks.length = N then 1 else 0) ∧
    s.blockNowState = (s₀.blockNowState || l.any (Event.raises .blockNow))

theorem Counted.start {N d : Nat} {s₀ : State} (hN : 1 ≤ N) (h : Unlocked N s₀) :
    Counted N d s₀ s₀ s₀.clock [] where
  spaced := trivial
  count := Nat.zero_le N
  timedownMinute := by simp [h.timedownMinute]
  previousOneMinuteCounter := h.previousOneMinuteCounter
  waiting _ := Nat.le_add_right _ _
  evaluated := ⟨le_rfl, le_rfl⟩
  BLOCK := by
    rw [h.BLOCK, eq_comm, decide_eq_false_iff_not, List.length_nil]
    omega
  log := ⟨[], rfl, by rw [if_neg (by simp; omega)]; rfl, by simp⟩

theorem Counted.stands {N d evaluated : Nat} {s₀ s t : State} {ticks : List Nat}
    (h : Counted N d s₀ s evaluated ticks) (hs : Stands s t) : Counted N d s₀ t evaluated ticks where
  spaced := h.spaced
  count := h.count
  timedownMinute := hs.timedownMinute.trans h.timedownMinute
  previousOneMinuteCounter := hs.previousOneMinuteCounter.trans h.previousOneMinuteCounter
  waiting := h.waiting
  evaluated := ⟨h.evaluated.1, h.evaluated.2.trans hs.clock⟩
  BLOCK := hs.BLOCK.trans h.BLOCK
  log := by
    obtain ⟨l, hl, hc, hb⟩ := h.log
    obtain ⟨m, hm, hcm, hbm⟩ := hs.log
    refine ⟨m ++ l, by rw [hm, hl, List.append_assoc], by rw [List.count_append, hcm, hc, Nat.zero_add], ?_⟩
    rw [hbm, hb, List.any_append, Bool.or_assoc, Bool.or_comm (m.any _)]

/-- What was logged while the filtered log grew by `n`. -/
theorem log_of_hist {s t : State} {n : List Event} (hs : s.log <:+ t.log)
    (h : t.minute.hist = n ++ s.minute.hist) :
    ∃ l, t.log = l ++ s.log ∧ l.filter (Event.raises .blockNow) = n := by
  obtain ⟨l, hl⟩ := hs
  refine ⟨l, hl.symm, ?_⟩
  have hn : t.log.filter (Event.raises .blockNow) = n ++ s.log.filter (Event.raises .blockNow) := h
  rw [← hl, List.filter_append] at hn
  exact List.append_cancel_right hn

theorem count_expired (l : List Event) :
    (l.filter (Event.raises .blockNow)).count .expired = l.count .expired :=
  List.count_filter rfl

theorem any_raises_eq (l : List Event) :
    l.any (Event.raises .blockNow) = !(l.filter (Event.raises .blockNow)).isEmpty := by
  induction l with
  | nil => rfl
  | cons e l ih =>
    cases he : e.raises .blockNow with
    | true => simp [he]
    | false => simp [he, ih]

theorem stands_of_minute {s t : State} (hs : s.log <:+ t.log) (h : t.minute = s.minute) : Stands s t := by
  obtain ⟨l, hl, hn⟩ := log_of_hist (n := []) hs (congrArg Minute.hist h)
  refine ⟨(congrArg Minute.clock h).ge, congrArg Minute.previousOneMinuteCounter h,
    congrArg Minute.timedownMinute h, congrArg Minute.BLOCK h, l, hl, ?_, ?_⟩
  · rw [← count_expired, hn, List.count_nil]
  · rw [any_raises_eq, hn]
    exact (congrArg Minute.blockNowState h).trans (Bool.or_false _).symm

/-- The evaluation changes nothing. -/
theorem Counted.evaluate {N d evaluated : Nat} {s₀ s : State} {ticks : List Nat}
    (h : Counted N d s₀ s evaluated ticks)
    (hw : ticks.length < N → s.clock ≤ ticks.headD s₀.clock + 59953) : Counted N d s₀ s s.clock ticks :=
  { h with waiting := hw, evaluated := ⟨h.evaluated.1.trans h.evaluated.2, le_rfl⟩ }

/-- The evaluation takes a minute off. -/
theorem Counted.tick {N d evaluated : Nat} {s₀ s t : State} {ticks : List Nat}
    (h : Counted N d s₀ s evaluated ticks) (hd : s.clock ≤ evaluated + d) (hlt : ticks.length < N)
    (hmin : ticks.headD s₀.clock + 59954 ≤ s.clock) (hs : s.log <:+ t.log) (hdue : s.minute.due)
    (ht : t.minute = s.minute.tick) : Counted N d s₀ t s.clock (s.clock :: ticks) := by
  rw [Minute.tick_of_due hdue] at ht
  have hw := h.waiting hlt
  have hm : t.timedownMinute = s.timedownMinute - 1 := congrArg Minute.timedownMinute ht
  have hlast : s.minute.timedownMinute = 1 ↔ (s.clock :: ticks).length = N := by
    have hsm : s.minute.timedownMinute = N - ticks.length := h.timedownMinute
    rw [hsm, List.length_cons]
    omega
  have hn : ticks.length ≠ N := hlt.ne
  refine ⟨⟨hmin, by omega, h.spaced⟩, hlt, ?_, congrArg Minute.previousOneMinuteCounter ht, fun _ =>
    Nat.le_add_right s.clock 59953, ⟨le_rfl, (congrArg Minute.clock ht).ge⟩, ?_, ?_⟩
  · rw [hm, h.timedownMinute, List.length_cons]
    omega
  · refine (congrArg Minute.BLOCK ht).trans ?_
    show (s.BLOCK || decide (s.minute.timedownMinute = 1)) = _
    rw [h.BLOCK, decide_eq_false hn, Bool.false_or, decide_eq_decide]
    exact hlast
  · obtain ⟨l, hl, hc, hb⟩ := h.log
    have hbt : t.blockNowState = (s.blockNowState || decide (s.minute.timedownMinute = 1)) :=
      congrArg Minute.blockNowState ht
    have hh : t.minute.hist = (if s.minute.timedownMinute = 1 then [.expired] else []) ++ s.minute.hist := by
      rw [ht]
      split <;> rfl
    obtain ⟨m, hm, hf⟩ := log_of_hist hs hh
    refine ⟨m ++ l, by rw [hm, hl, List.append_assoc], ?_, ?_⟩
    · rw [List.count_append, hc, if_neg hn, ← count_expired, hf]
      by_cases h1 : s.minute.timedownMinute = 1
      · rw [if_pos h1, if_pos (hlast.1 h1)]
        rfl
      · rw [if_neg h1, if_neg (mt hlast.2 h1)]
        rfl
    · rw [hbt, hb, List.any_append, any_raises_eq m, hf, Bool.or_assoc, Bool.or_comm (l.any _)]
      by_cases h1 : s.minute.timedownMinute = 1
      · rw [if_pos h1, decide_eq_true h1]
        rfl
      · rw [if_neg h1, decide_eq_false h1]
        rfl

/-- An evaluation of the gate that is not too late. -/
theorem Counted.gate {N d evaluated : Nat} {s₀ s t : State} {ticks : List Nat} (hdN : d < 2 ^ 31)
    (h : Counted N d s₀ s evaluated ticks) (hd : s.clock ≤ evaluated + d)
    (hs : s.log <:+ t.log) (ht : t.minute = s.minute.tick) :
    Counted N d s₀ t s.clock
      (if t.timedownMinute = s.timedownMinute then ticks else s.clock :: ticks) := by
  have hsame : (ticks.length < N → s.clock ≤ ticks.headD s₀.clock + 59953) → ¬ s.minute.due →
      Counted N d s₀ t s.clock
        (if t.timedownMinute = s.timedownMinute then ticks else s.clock :: ticks) := by
    intro hw hdue
    have hm : t.minute = s.minute := ht.trans (if_neg hdue)
    have he : t.timedownMinute = s.timedownMinute := congrArg Minute.timedownMinute hm
    rw [if_pos he]
    exact (h.evaluate hw).stands (stands_of_minute hs hm)
  by_cases hn : ticks.length = N
  · refine hsame (fun hlt => absurd hn hlt.ne) fun hdue => hdue.2 ?_
    show s.timedownMinute = 0
    rw [h.timedownMinute, hn, Int.sub_self]
  · have hlt : ticks.length < N := lt_of_le_of_ne h.count hn
    have hlast := h.evaluated.1.trans h.evaluated.2
    have hw := h.waiting hlt
    have he : elapsed (s.clock % 2 ^ 32) s.previousOneMinuteCounter = s.clock - ticks.headD s₀.clock := by
      rw [h.previousOneMinuteCounter]
      exact elapsed_mod hlast (by omega)
    have hdue : s.minute.due ↔ ticks.headD s₀.clock + 59954 ≤ s.clock := by
      show (59953 < elapsed (s.clock % 2 ^ 32) s.previousOneMinuteCounter ∧ s.timedownMinute ≠ 0) ↔ _
      rw [he, h.timedownMinute]
      omega
    by_cases hdue' : s.minute.due
    · have hne : t.timedownMinute ≠ s.timedownMinute := by
        have hm : t.timedownMinute = s.timedownMinute - 1 :=
          congrArg Minute.timedownMinute (ht.trans (Minute.tick_of_due hdue'))
        omega
      rw [if_neg hne]
      exact h.tick hd hlt (hdue.1 hdue') hs hdue' ht
    · refine hsame (fun _ => ?_) hdue'
      rw [hdue] at hdue'
      omega

section

variable (P : Platform)

/-- The code between two evaluations, as far as no request is processed. -/
abbrev Waiting (k : List Sketch) : Prop :=
  Stays (fun _ => Stands) (fun _ => Processed) (· = minuteGate) k

theorem waiting_afterUnlock (online sober : Bool) : Waiting (afterUnlock P online sober) := by
  have hp := parts_minute P
  refine .inl fun c hc => ?_
  simp only [afterUnlock, List.mem_cons, List.not_mem_nil, or_false] at hc
  rcases hc with rfl | rfl | rfl | rfl | rfl
  · exact .skip
  · cases sober with
    | true => exact .seq hp.blockNow (.seq hp.unblockNow (.seq hp.relay .skip))
    | false => exact .seq hp.relay .skip
  · exact .skip
  · exact hp.rest online
  · exact .forever hp.loop

theorem waiting_behind {l : List Sketch} (h : Waiting (minuteGate :: l)) : Waiting l := by
  rcases h with h | ⟨a, k, hk, ha⟩
  · exact .inl fun c hc => h c (List.mem_cons_of_mem _ hc)
  · obtain ⟨rfl, -⟩ := List.cons.inj hk
    nomatch ha

theorem Elsewhere.stands {x : Choice Env Outside} {c : Config State Env} (h : Elsewhere P x c)
    (hc : Waiting c.code) : Stands c.state ((device P).step x c).state ∧ Waiting ((device P).step x c).code := by
  cases x with
  | run i =>
    obtain ⟨p, hp⟩ := Option.isSome_iff_exists.1 (h.lasts.2 i rfl)
    have hs : (device P).step (.run i) c = ⟨p.1, p.2⟩ := by simp only [Machine.step, hp]
    have hr := h.request
    rw [hs] at hr ⊢
    obtain ⟨hw, ht⟩ := hc.step (fun a l ha hg => h.gate l i (by rw [ha, hg]) rfl) hp hr
    refine ⟨?_, hw⟩
    rcases ht with ht | ht
    · rw [ht]
      exact .refl _
    · exact ht
  | outside r => exact ⟨(apace_react r c.state).stands, hc⟩
  | reset => exact absurd rfl h.lasts.1

theorem Paced.counted {N d evaluated : Nat} {s₀ : State} {online sober : Bool} {xs : Run}
    {ticks : List Nat} (hN : 1 ≤ N) (hd : d < 2 ^ 31) (h₀ : Unlocked N s₀)
    (h : Paced P d ⟨afterUnlock P online sober, s₀⟩ xs evaluated ticks) :
    Counted N d s₀ ((device P).exec xs ⟨afterUnlock P online sober, s₀⟩).state evaluated ticks ∧
      Waiting ((device P).exec xs ⟨afterUnlock P online sober, s₀⟩).code := by
  induction h with
  | start => exact ⟨.start hN h₀, waiting_afterUnlock P online sober⟩
  | between _ x hx ih =>
    rw [Machine.exec_append]
    obtain ⟨hs, hw⟩ := hx.stands P ih.2
    exact ⟨ih.1.stands hs, hw⟩
  | @gate xs evaluated ticks _ s t l ys hc hdt hf ht ih =>
    rw [hc] at ih
    have he : (device P).exec ys ⟨minuteGate :: l, s⟩ = ⟨l, t⟩ := exec_of_finish (device P) hf l
    rw [Machine.exec_append, hc, he]
    have hgrow := suffix_of_finish remote_minuteGate.aside.grows hf
    exact ⟨ih.1.gate hd hdt hgrow (tick_of_finish hf ht), waiting_behind ih.2⟩

end

/-- `N` minutes after an unlocking at `T`, with the gate evaluated at most every `d` ms: one minute is
taken off at a time, 59954 to 59953 + `d` ms after the last, and the lock closes with the last one. -/
theorem countdown_timing (P : Platform) (online sober : Bool) (N d : Nat) (s₀ : State) (hN : 1 ≤ N)
    (hd : d < 2 ^ 31) (h₀ : Unlocked N s₀) (xs : Run) (evaluated : Nat) (ticks : List Nat)
    (h : Paced P d ⟨afterUnlock P online sober, s₀⟩ xs evaluated ticks) :
    let s := ((device P).exec xs ⟨afterUnlock P online sober, s₀⟩).state
    ticks.length ≤ N ∧ s.timedownMinute = N - ticks.length ∧ Spaced d s₀.clock ticks ∧
    (s.BLOCK = true ↔ ticks.length = N) ∧
    (s₀.during s).count .expired = (if ticks.length = N then 1 else 0) ∧
    s.blockNowState = (s₀.blockNowState || (s₀.during s).any (Event.raises .blockNow)) ∧
    (ticks.length = N → s₀.clock + N * 59954 ≤ ticks.headD s₀.clock ∧
      ticks.headD s₀.clock ≤ s₀.clock + N * (59953 + d)) ∧
    (ticks.length < N → evaluated + d ≤ s₀.clock + N * (59953 + d)) := by
  intro s
  obtain ⟨hc, -⟩ := h.counted P hN hd h₀
  obtain ⟨l, hl, hn, hb⟩ := hc.log
  have hduring : s₀.during s = l := by
    show List.take _ _ = _
    simp [s, hl]
  refine ⟨hc.count, hc.timedownMinute, hc.spaced, ?_, by rw [hduring]; exact hn, by rw [hduring]; exact hb, fun he => ?_,
    fun hlt => ?_⟩
  · rw [show s.BLOCK = _ from hc.BLOCK]
    exact decide_eq_true_iff
  · rw [← he]
    exact hc.spaced.bounds
  · obtain ⟨-, hhi⟩ := hc.spaced.bounds
    have hw := hc.waiting hlt
    calc
      evaluated + d ≤ ticks.headD s₀.clock + 59953 + d := Nat.add_le_add_right hw d
      _ ≤ s₀.clock + ticks.length * (59953 + d) + (59953 + d) := by
        rw [Nat.add_assoc]
        exact Nat.add_le_add_right hhi _
      _ = s₀.clock + (ticks.length + 1) * (59953 + d) := by rw [Nat.succ_mul, Nat.add_assoc]
      _ ≤ s₀.clock + N * (59953 + d) := Nat.add_le_add_left (Nat.mul_le_mul_right _ hlt) _

/-- The gate among the codes of `loop`. -/
def gateLike : Sketch → Bool
  | .ite _ (.seq (.act _) (.seq (.act _) (.seq (.ite _ _ _) .skip))) .skip => true
  | _ => false

theorem gateLike_minuteGate : gateLike minuteGate = true := rfl

def answers (s t : State) : Bool :=
  t.log.length ≠ s.log.length && t.log.head?.any fun e => e.command.any fun p => p.2.isSome

/-- A test for `Elsewhere`. -/
def isElsewhere (x : Choice Env Outside) (c d : Config State Env) : Bool :=
  !answers c.state d.state &&
    match x with
    | .run i => (Code.step i c.code c.state).isSome && !c.code.head?.any gateLike
    | .outside _ => true
    | .reset => false

theorem answers_of_processed {s t : State} (h : Processed s t) : answers s t = true := by
  obtain ⟨c, r, hl⟩ := h
  rw [answers, hl]
  simp [Event.command]

theorem elsewhere_of {P : Platform} {x : Choice Env Outside} {c : Config State Env}
    (h : isElsewhere x c ((device P).step x c) = true) : Elsewhere P x c := by
  obtain ⟨ha, hx⟩ := Bool.and_eq_true_iff.1 h
  have hr : ¬ Processed c.state ((device P).step x c).state := fun hp => by
    rw [answers_of_processed hp] at ha
    exact Bool.noConfusion ha
  cases x with
  | run i =>
    obtain ⟨hs, hg⟩ := Bool.and_eq_true_iff.1 hx
    refine ⟨fun l j hc _ => ?_, hr, by simp, fun j hj => ?_⟩
    · rw [hc, List.head?_cons, Option.any_some, gateLike_minuteGate] at hg
      exact Bool.noConfusion hg
    · obtain rfl := Choice.run.inj hj
      exact hs
  | outside r => exact ⟨fun _ _ _ => by simp, hr, by simp, by simp⟩
  | reset => simp at hx

theorem Paced.run {P : Platform} {d evaluated : Nat} {c₀ : Config State Env} {xs ys : Run}
    {ticks : List Nat} (h : Paced P d c₀ xs evaluated ticks)
    (hy : (device P).Along (fun x c d => isElsewhere x c d = true) ys ((device P).exec xs c₀)) :
    Paced P d c₀ (xs ++ ys) evaluated ticks := by
  induction ys generalizing xs with
  | nil => simpa using h
  | cons y ys ih =>
    have hs : (device P).exec (xs ++ [y]) c₀ = (device P).step y ((device P).exec xs c₀) :=
      (device P).exec_append xs [y] c₀
    rw [List.append_cons]
    exact ih (h.between y (elsewhere_of hy.1)) (by rw [hs]; exact hy.2)

/-- The first tap of the app, up to the last statement of the answer. -/
def tapAnswered : Run := idle 223 ++ tap 0 ++ idle 40 ++ pause 1000 ++ idle 48

def minuteLater : Run := idle 30 ++ pause 60000

set_option maxRecDepth 10000 in
theorem countdown_timing_minute :
    ((device bench).exec (minuteLater ++ idle 15) (after bench (flashOf 1) tapAnswered)).state.BLOCK =
      true := by
  have hcode : (after bench (flashOf 1) tapAnswered).code = afterUnlock bench true false := rfl
  have hu : Unlocked 1 (after bench (flashOf 1) tapAnswered).state := by
    constructor
    all_goals decide +kernel
  have hb : (device bench).Along (fun x c d => isElsewhere x c d = true) minuteLater
      (after bench (flashOf 1) tapAnswered) := by
    decide +kernel
  have hgate : ((device bench).exec minuteLater (after bench (flashOf 1) tapAnswered)).code =
      minuteGate :: ((device bench).exec minuteLater (after bench (flashOf 1) tapAnswered)).code.tail := rfl
  have hg : (finish react (idle 15) [minuteGate] ((device bench).exec minuteLater
      (after bench (flashOf 1) tapAnswered)).state).map (fun t => (t.clock, t.timedownMinute)) =
      some (63211, 0) := by
    decide +kernel
  have hs : (((device bench).exec minuteLater (after bench (flashOf 1) tapAnswered)).state.clock,
      ((device bench).exec minuteLater (after bench (flashOf 1) tapAnswered)).state.timedownMinute,
      (after bench (flashOf 1) tapAnswered).state.clock) = (63211, 1, 3171) := by
    decide +kernel
  obtain ⟨s₀, h₀⟩ := Config.of_code hcode
  rw [h₀] at hu hb hgate hg hs ⊢
  obtain ⟨s, hc⟩ := Config.of_code hgate
  have hp : Paced bench 61000 ⟨afterUnlock bench true false, s₀⟩ minuteLater s₀.clock [] :=
    Paced.start.run hb
  rw [hc] at hg hs
  obtain ⟨t, hf, ht⟩ := Option.map_eq_some_iff.1 hg
  simp only [Prod.mk.injEq] at hs ht
  have hgp := Paced.gate hp hc (by omega) hf (by omega)
  rw [if_neg (by omega)] at hgp
  exact (countdown_timing bench true false 1 61000 s₀ le_rfl (by decide) hu _ _ _ hgp).2.2.2.1.2 rfl

end Center
