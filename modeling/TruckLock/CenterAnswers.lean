import TruckLock.CenterCountdown

/-!
# One call of updateWebsocket

The four requests are answered in a fixed order, and the app may write V1
while the first two are being reported. What a call with a detected
concentration ends with follows from the flags at its start and from these
writes.
-/
namespace Center

open Firmware Spec

/-- The request whose report is going on: that of the newest command, until the watchdog acts. -/
def reporting : List Event → Option Request
  | [] => none
  | .broadcast _ r :: _ => r
  | .relayLost :: _ => none
  | _ :: l => reporting l

/-- The app has written V1 during the report of `r`. -/
def heardIn (r : Request) : List Event → Bool
  | [] => false
  | .app w :: l => w.pin = .V1 && reporting l = some r || heardIn r l
  | _ :: l => heardIn r l

namespace Answers

/-- The lock is closed, and the last of the commands `n` closed it. -/
def Wins (v : Lock) (n : List Event) : Prop :=
  v.BLOCK = true ∧ v.timedownMinute = 0 ∧ ∃ c, lastCommand n = some c ∧ c.locks = true

/-- During the report of `r` in a call that started with `e` and has logged `n`. -/
structure Reporting (e : Lock) (r : Request) (v : Lock) (n : List Event) : Prop where
  hist : v.hist = n ++ e.hist
  now : reporting n = some r
  block : v.BLOCK = r.command.locks
  time : r.command.locks = true → v.timedownMinute = 0
  last : lastCommand n = some r.command
  blockNow : v.pending .blockNow = (e.pending .blockNow || heardIn .notAlcohol n)
  unblockNow : v.pending .unblockNow = (e.pending .unblockNow || heardIn .isAlcohol n)
  first : r = .isAlcohol →
    v.pending .notAlcohol = e.pending .notAlcohol ∧ heardIn .notAlcohol n = false

/-- The second of the two tests has been answered last if it was pending. -/
def second (e : Lock) : Request := if e.pending .notAlcohol then .notAlcohol else .isAlcohol

/-- The outcome of the first three answers. -/
structure Locked (e v : Lock) (n : List Event) : Prop where
  hist : v.hist = n ++ e.hist
  unblockNow : v.pending .unblockNow = (e.pending .unblockNow || heardIn .isAlcohol n)
  closed : (e.pending .notAlcohol = true → e.pending .blockNow = true ∨ heardIn .notAlcohol n = true) →
    Wins v n
  opened : ¬ (e.pending .notAlcohol = true → e.pending .blockNow = true ∨ heardIn .notAlcohol n = true) →
    v.BLOCK = false

/-- The outcome of the whole call. -/
structure Outcome (e v : Lock) (n : List Event) : Prop where
  hist : v.hist = n ++ e.hist
  wins : Wins v n ↔ e.pending .unblockNow = false ∧ heardIn .isAlcohol n = false ∧
    (e.pending .notAlcohol = true → e.pending .blockNow = true ∨ heardIn .notAlcohol n = true)

variable {e v : Lock} {r : Request} {n : List Event} {Q : Lock → Prop}

/-- An event that is no command and no write of the app. -/
theorem Reporting.say {x : Event} (h : Reporting e r v n) (hr : reporting (x :: n) = reporting n)
    (hl : lastCommand (x :: n) = lastCommand n) (hh : ∀ q, heardIn q (x :: n) = heardIn q n) :
    Reporting e r (v.say x) (x :: n) where
  hist := by simp [Lock.say, h.hist]
  now := hr.trans h.now
  block := h.block
  time := h.time
  last := hl.trans h.last
  blockNow := by rw [hh]; exact h.blockNow
  unblockNow := by rw [hh]; exact h.unblockNow
  first hq := by rw [hh]; exact h.first hq

theorem chain_call {m : Move Env Lock} {ms : List (Move Env Lock)} {A : Lock → Prop} :
    (call Q).Chain (m :: ms) A v ↔ ∀ i w, m i v w → (call Q).Chain ms A w := by
  simp [fed]

/-- The request that a write of the app on V1 raises during the report of `r`. -/
def raisedBy (r : Request) : Request := if r.command.locks then .unblockNow else .blockNow

/-- After a write on V1: `m` is what the handler has added to `n`. -/
theorem Reporting.pressed {w : Lock} {m : List Event} (h : Reporting e r v n)
    (hr : r = .isAlcohol ∨ r = .notAlcohol) (hist : w.hist = m ++ e.hist) (hb : w.BLOCK = v.BLOCK)
    (ht : w.timedownMinute = v.timedownMinute)
    (hp : ∀ q, w.pending q = if q = raisedBy r then true else v.pending q)
    (hn : reporting m = some r) (hl : lastCommand m = lastCommand n)
    (hh : ∀ q, heardIn q m = (decide (q = r) || heardIn q n)) : Reporting e r w m where
  hist := hist
  now := hn
  block := hb.trans h.block
  time hq := ht.trans (h.time hq)
  last := hl.trans h.last
  blockNow := by
    rcases hr with rfl | rfl
    · simp [hp, hh, raisedBy, Request.command, Command.locks, h.blockNow]
    · simp [hp, hh, raisedBy, Request.command, Command.locks]
  unblockNow := by
    rcases hr with rfl | rfl
    · simp [hp, hh, raisedBy, Request.command, Command.locks]
    · simp [hp, hh, raisedBy, Request.command, Command.locks, h.unblockNow]
  first hq := by
    subst hq
    simpa [hp, hh, raisedBy, Request.command, Command.locks] using h.first rfl

theorem toggling_eq (b : Bool) : ∃ k f, Lock.toggling b =
    [Lock.sending (.reply 1 [.int k]), Lock.raising (if b then .unblockNow else .blockNow) f] ∧
    ∀ v, f v = .appUnblock v.BLOCK ∨ f v = .appBlock v.BLOCK := by
  cases b with
  | true => exact ⟨0, _, rfl, fun _ => .inl rfl⟩
  | false => exact ⟨1, _, rfl, fun _ => .inr rfl⟩

theorem Reporting.onV1 (h : Reporting e r v n) (hr : r = .isAlcohol ∨ r = .notAlcohol) (p : Param) :
    (call Q).Chain (Lock.saying (.app ⟨.V1, p⟩) :: Lock.toggling v.BLOCK)
      (fun w => ∃ n, Reporting e r w n) v := by
  obtain ⟨k, f, ht, hf⟩ := toggling_eq v.BLOCK
  have hnow := h.now
  rw [ht, chain_call]
  rintro i _ rfl
  rw [chain_call]
  intro i w hw
  rw [chain_call]
  rintro j _ rfl
  -- the handler's message is logged if there is a link
  obtain ⟨m, hm, rfl⟩ : ∃ m, (m = .app ⟨.V1, p⟩ :: n ∨
      m = .reply 1 [.int k] :: .app ⟨.V1, p⟩ :: n) ∧ w = { v with hist := m ++ e.hist } := by
    simp only [Lock.sending] at hw
    split at hw
    · exact ⟨_, .inr rfl, by simp [hw, Lock.say, h.hist]⟩
    · exact ⟨_, .inl rfl, by simp [hw, Lock.say, h.hist]⟩
  obtain ⟨x, hx, hnow', hlast', hheard'⟩ : ∃ x, f { v with hist := m ++ e.hist } = x ∧
      reporting (x :: m) = some r ∧ lastCommand (x :: m) = lastCommand n ∧
      ∀ q, heardIn q (x :: m) = (decide (q = r) || heardIn q n) := by
    refine ⟨_, rfl, ?_⟩
    rcases hf { v with hist := m ++ e.hist } with hf | hf <;> rcases hm with rfl | rfl
    all_goals
      rw [hf]
      refine ⟨hnow, rfl, fun q => ?_⟩
      simp [heardIn, hnow, eq_comm]
  refine ⟨x :: m, h.pressed hr ?_ rfl rfl (fun q => ?_) hnow' hlast' hheard'⟩
  · simp [hx]
  · rw [raisedBy, ← h.block]
    rfl

theorem kept_reporting (hr : r = .isAlcohol ∨ r = .notAlcohol) :
    Kept (call Q) fun v => ∃ n, Reporting e r v n where
  inv _ _ := trivial
  loosen v := by
    rintro ⟨n, h⟩
    rw [chain_call]
    rintro i _ ⟨d, b, rfl⟩
    exact ⟨n, ⟨h.hist, h.now, h.block, h.time, h.last, h.blockNow, h.unblockNow, h.first⟩⟩
  onV1 v p := by
    rintro ⟨n, h⟩
    exact h.onV1 hr p

theorem chain_answering {A : Lock → Prop} (h : A (v.answered r)) :
    (call Q).Chain (Lock.answering r) A v := by
  rw [Lock.answering, chain_call]
  rintro _ _ rfl
  rw [chain_call]
  rintro _ _ rfl
  rw [chain_call]
  rintro _ _ rfl
  rw [chain_call]
  rintro _ _ rfl
  exact h

theorem chain_report (k : Int) : (∃ n, Reporting e r v n) → (call Q).Chain
    [Lock.sending (.virtualWrite 1 [.int k])] (fun w => ∃ n, Reporting e r w n) v := by
  rintro ⟨n, h⟩
  refine chain_sending trivial ?_
  rintro i w (rfl | rfl) -
  · exact ⟨trivial, _, h.say rfl rfl fun _ => rfl⟩
  · exact ⟨trivial, n, h⟩

theorem leads_first (P : Platform) (he : e.pending .isAlcohol = true) :
    (call Q).Leads State.lock (· = e) (answerIsAlcohol P)
      (fun v => ∃ n, Reporting e .isAlcohol v n) := by
  have hk := kept_reporting (Q := Q) (e := e) (.inl rfl : Request.isAlcohol = .isAlcohol ∨ _)
  refine leads_answerIsAlcohol P (fun _ _ => trivial) hk hk ?_ ?_ fun v => chain_report 1
  · rintro v rfl hp
    simp [he] at hp
  · rintro v rfl -
    have h : Reporting v .isAlcohol (v.answered .isAlcohol)
        [.broadcast (Request.command .isAlcohol) (some .isAlcohol)] :=
      ⟨rfl, rfl, rfl, fun _ => rfl, rfl, by simp [heardIn],
        by simp [heardIn], fun _ => by simp [heardIn]⟩
    exact chain_answering ⟨fun _ => ⟨_, h⟩, fun _ => ⟨_, h⟩⟩

theorem leads_second (P : Platform) :
    (call Q).Leads State.lock (fun v => ∃ n, Reporting e .isAlcohol v n) (answerNotAlcohol P)
      (fun v => ∃ n, Reporting e (second e) v n) := by
  have hk : Kept (call Q) fun v => ∃ n, Reporting e (second e) v n := by
    refine kept_reporting ?_
    unfold second
    split <;> simp
  refine leads_answerNotAlcohol P (fun _ _ => trivial) hk hk ?_ ?_ fun v => chain_report 0
  · rintro v ⟨n, h⟩ hp
    rw [(h.first rfl).1] at hp
    exact ⟨n, by simpa [second, hp] using h⟩
  · rintro v ⟨n, h⟩ hp
    rw [(h.first rfl).1] at hp
    have h' : Reporting e (second e) (v.answered .notAlcohol)
        (.broadcast (Request.command .notAlcohol) (some .notAlcohol) :: n) := by
      rw [show second e = .notAlcohol by simp [second, hp]]
      exact ⟨by simp [h.hist], rfl, rfl, fun hl => by simp [Request.command, Command.locks] at hl,
        rfl, h.blockNow, h.unblockNow, fun hq => by simp at hq⟩
    exact chain_answering ⟨fun _ => ⟨_, h'⟩, fun _ => ⟨_, h'⟩⟩

theorem leads_third :
    (call Q).Leads State.lock (fun v => ∃ n, Reporting e (second e) v n) answerBlockNow
      (fun v => ∃ n, Locked e v n) := by
  refine leads_answerBlockNow (fun _ _ => trivial) (fun _ _ => trivial) ?_ ?_
  · rintro v ⟨n, h⟩ hp
    rw [h.blockNow, Bool.or_eq_false_iff] at hp
    refine ⟨n, h.hist, h.unblockNow, fun hc => ?_, fun hc => ?_⟩
    · have hn : e.pending .notAlcohol = false := by
        cases hn : e.pending .notAlcohol with
        | false => rfl
        | true => simpa [hp] using hc hn
      have hb := h.block
      have ht := h.time
      have hl := h.last
      simp only [second, hn, Bool.false_eq_true, if_false] at hb ht hl
      exact ⟨hb, ht rfl, _, hl, rfl⟩
    · have hn : e.pending .notAlcohol = true := by
        cases hn : e.pending .notAlcohol with
        | true => rfl
        | false => simp [hn] at hc
      have hb := h.block
      simp only [second, hn, if_true] at hb
      exact hb
  · rintro v ⟨n, h⟩ hp
    rw [h.blockNow, Bool.or_eq_true_iff] at hp
    refine chain_answering ⟨.broadcast (Request.command .blockNow) (some .blockNow) :: n,
      by simp [h.hist], h.unblockNow, fun _ => ⟨rfl, rfl, _, rfl, rfl⟩, fun hc => ?_⟩
    exact absurd (fun _ => hp) hc

theorem leads_fourth :
    (call Q).Leads State.lock (fun v => ∃ n, Locked e v n) answerUnblockNow
      (fun v => ∃ n, Outcome e v n) := by
  refine leads_answerUnblockNow (fun _ _ => trivial) (fun _ _ => trivial) ?_ ?_
  · rintro v ⟨n, h⟩ hp
    rw [h.unblockNow, Bool.or_eq_false_iff] at hp
    refine ⟨n, h.hist, fun hw => ⟨hp.1, hp.2, ?_⟩, fun hc => h.closed hc.2.2⟩
    by_contra hc
    simpa [h.opened hc] using hw.1
  · rintro v ⟨n, h⟩ hp
    rw [h.unblockNow, Bool.or_eq_true_iff] at hp
    refine chain_answering ⟨.broadcast (Request.command .unblockNow) (some .unblockNow) :: n,
      by simp [h.hist], fun hw => absurd hw.1 (by simp), fun hc => ?_⟩
    rcases hp with hp | hp
    · simp [hp] at hc
    · simp [heardIn, hp] at hc

/-- What is logged after the watchdog has acted does not change the outcome. -/
theorem Outcome.grow {w : Lock} {m : List Event} (h : Outcome e v n) (hist : w.hist = m ++ e.hist)
    (hb : w.BLOCK = v.BLOCK) (ht : w.timedownMinute = v.timedownMinute)
    (hl : lastCommand m = lastCommand n) (hh : ∀ q, heardIn q m = heardIn q n) : Outcome e w m where
  hist := hist
  wins := by
    rw [hh, hh, ← h.wins, Wins, Wins, hb, ht, hl]

theorem kept_lost : Kept (call Q) fun v => ∃ n, Outcome e v n ∧ reporting n = none where
  inv _ _ := trivial
  loosen v := by
    rintro ⟨n, h, hn⟩
    rw [chain_call]
    rintro i _ ⟨d, b, rfl⟩
    exact ⟨n, ⟨h.hist, h.wins⟩, hn⟩
  onV1 := by
    refine onV1_of_steps ?_ ?_ ?_ ?_
    · rintro v p ⟨n, h, hn⟩
      refine chain_to trivial fun _ _ => ⟨trivial, .app ⟨.V1, p⟩ :: n, h.grow (by simp [h.hist]) rfl rfl
        rfl fun q => ?_, hn⟩
      simp [heardIn, hn]
    · rintro v k ⟨n, h, hn⟩
      refine chain_sending trivial ?_
      rintro i w (rfl | rfl) -
      · exact ⟨trivial, .reply 1 [.int k] :: n, h.grow (by simp [h.hist]) rfl rfl rfl fun q => rfl, hn⟩
      · exact ⟨trivial, n, h, hn⟩
    · rintro v ⟨n, h, hn⟩ -
      exact chain_to trivial fun _ _ => ⟨trivial, .appUnblock v.BLOCK :: n,
        h.grow (by simp [h.hist]) rfl rfl rfl fun q => rfl, hn⟩
    · rintro v ⟨n, h, hn⟩ -
      exact chain_to trivial fun _ _ => ⟨trivial, .appBlock v.BLOCK :: n,
        h.grow (by simp [h.hist]) rfl rfl rfl fun q => rfl, hn⟩

/-- The whole call, from a state with a detected concentration. -/
theorem leads_updateWebsocket (P : Platform) (he : e.pending .isAlcohol = true) :
    (call Q).Leads State.lock (· = e) (updateWebsocket P) (fun v => ∃ n, Outcome e v n) := by
  have hlast : (call Q).Leads State.lock (fun v => ∃ n, Outcome e v n) (checkRelay P)
      (fun v => ∃ n, Outcome e v n) := by
    refine leads_checkRelay P (fun _ _ => trivial) (kept_lost (e := e)) ?_ (fun _ h => h) ?_
    · rintro v ⟨n, h, -⟩
      exact ⟨n, h⟩
    · rintro v ⟨n, h⟩
      exact chain_to trivial fun _ _ => ⟨trivial, .relayLost :: n,
        h.grow (by simp [h.hist]) rfl rfl rfl fun q => rfl, rfl⟩
  exact .seq (leads_first P he) (.seq (leads_second P) (.seq leads_third (.seq leads_fourth
    (.seq hlast (Leads.done (A := fun v => ∃ n, Outcome e v n) fun _ _ => trivial)))))

theorem heardIn_filter (r : Request) (l : List Event) :
    reporting (l.filter Event.onLock) = reporting l ∧ heardIn r (l.filter Event.onLock) = heardIn r l := by
  induction l with
  | nil => exact ⟨rfl, rfl⟩
  | cons x l ih =>
    cases hx : x.onLock with
    | true =>
      rw [List.filter_cons_of_pos hx]
      cases x <;> first | exact ih | exact ⟨rfl, ih.2⟩ | exact ⟨ih.1, by simp [heardIn, ih.1, ih.2]⟩
    | false =>
      rw [List.filter_cons_of_neg (by simp [hx]), ih.1, ih.2]
      cases x with
      | app w =>
        have hw : w.pin ≠ .V1 := by simpa [Event.onLock] using hx
        exact ⟨rfl, by simp [heardIn, hw]⟩
      | broadcast c q => simp [Event.onLock] at hx
      | relayLost => simp [Event.onLock] at hx
      | _ => exact ⟨rfl, rfl⟩

end Answers

/-- What a call logs comes on top of the log. -/
theorem during_append {c : Sketch} (hc : Grows c) {xs : Run} {s t : State}
    (h : finish react xs [c] s = some t) : t.log = s.during t ++ s.log := by
  obtain ⟨n, hn⟩ := suffix_of_finish hc h
  simp [State.during, ← hn]

/-- The truck is locked, and the last command of the call said so. -/
def LockedBy (s t : State) : Prop :=
  t.BLOCK = true ∧ t.timedownMinute = 0 ∧ ∃ c, lastCommand (s.during t) = some c ∧ c.locks = true

/-- A call that starts with a detected concentration leaves the truck locked if and only if no
unlocking by the app is pending or arrives before the second report, and a passed test that is
pending too is followed by a lock request. -/
theorem alcohol_wins_iff (P : Platform) {xs : Run} {s t : State} (hs : s.isAlcoholState = true)
    (h : finish react xs [updateWebsocket P] s = some t) :
    LockedBy s t ↔ s.unblockNowState = false ∧ heardIn .isAlcohol (s.during t) = false ∧
      (s.notAlcoholState = true →
        s.blockNowState = true ∨ heardIn .notAlcohol (s.during t) = true) := by
  obtain ⟨n, ho⟩ := Leads.finish (A := (· = s.lock)) (fun r s => lock_react s r)
    (Answers.leads_updateWebsocket P hs) rfl h
  have hn : n = (s.during t).filter Event.onLock := by
    refine List.append_cancel_right (?_ : n ++ s.lock.hist = _ ++ s.lock.hist)
    rw [← ho.hist]
    show t.log.filter Event.onLock = _
    rw [during_append (grows_updateWebsocket P) h, List.filter_append]
    rfl
  have hw := ho.wins
  rw [hn, (Answers.heardIn_filter _ _).2, (Answers.heardIn_filter _ _).2, Answers.Wins,
    lastCommand_filter] at hw
  exact hw

/-- The first call of `updateWebsocket` after a test of a drunk driver. -/
def drunkAnswered : Run := tested drunk ++ idle 40 ++ pause 1000 ++ idle 8

/-- The same, with a write on V1 right after the test. -/
def drunkUnblocked : Run := tested drunk ++ tap 0 ++ idle 40 ++ pause 1000 ++ idle 27

set_option maxRecDepth 10000 in
theorem alcohol_wins_drunk : ∃ t, finish react (idle 92) [updateWebsocket bench]
      (after bench (flashOf 5) drunkAnswered).state = some t ∧
    LockedBy (after bench (flashOf 5) drunkAnswered).state t := by
  have hf : (finish react (idle 92) [updateWebsocket bench]
      (after bench (flashOf 5) drunkAnswered).state).map (fun t =>
        heardIn .isAlcohol ((after bench (flashOf 5) drunkAnswered).state.during t)) = some false := by
    decide +kernel
  obtain ⟨t, ht, hh⟩ := Option.map_eq_some_iff.1 hf
  refine ⟨t, ht, (alcohol_wins_iff bench ?_ ht).2 ⟨?_, hh, fun hn => absurd hn ?_⟩⟩
  all_goals decide +kernel

set_option maxRecDepth 10000 in
/-- An unlocking by the app that is pending with the detected concentration has the last word. -/
theorem alcohol_can_lose : ¬ ∀ (P : Platform) (flash : Nat → UInt8) (xs ys : Run) (t : State),
    (after P flash xs).code.head? = some (updateWebsocket P) →
    (after P flash xs).state.isAlcoholState = true →
    finish react ys [updateWebsocket P] (after P flash xs).state = some t →
    LockedBy (after P flash xs).state t := by
  intro h
  have hf : (finish react (idle 102) [updateWebsocket bench]
      (after bench (flashOf 5) drunkUnblocked).state).map State.BLOCK = some false := by
    decide +kernel
  obtain ⟨t, ht, hb⟩ := Option.map_eq_some_iff.1 hf
  have hw := (h bench (flashOf 5) drunkUnblocked (idle 102) t rfl (by decide +kernel) ht).1
  simp [hb] at hw

end Center
