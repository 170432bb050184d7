import TruckLock.CenterPhases

/-!
# Invariants of the lock over whole runs

An assertion for each phase of the sketch, kept by every move that the sketch
makes on the lock in that phase, holds throughout every run: while it sets up,
between two moves of the main loop, and while a report to the app is owed.
-/
namespace Center

open Firmware Spec

inductive Phase where
  | setup
  | ready
  | rest
  | owing (r : Request)

namespace Phase

/-- The phase after an answer: with Wi-Fi the outcome of a test is reported. -/
def after (r : Request) (v : Lock) : Phase :=
  if (r = .isAlcohol ∨ r = .notAlcohol) ∧ v.wifiFlash = true then .owing r else .rest

theorem after_ne_setup (r : Request) (v : Lock) : after r v ≠ .setup := by
  unfold after
  split <;> simp

end Phase

def Lock.initial (n : Int) : Lock where
  BLOCK := true
  timedownMinute := 0
  pending := fun _ => false
  duration := n
  wifiFlash := false
  isMatchFaceID := false
  hist := [.boot]

/-- The requests before the place `n` are not pending. -/
def Answered (n : Nat) (v : Lock) : Prop := ∀ q, q.rank < n → v.pending q = false

/-- The value of the app's button that goes with a command. -/
def Command.button (c : Command) : Value := .int (if c.locks then 1 else 0)

/-- The moves of the whole sketch keep the assertions `I`. -/
structure Maintained (S : Spec Env Lock) (I : Phase → Lock → Prop) : Prop where
  kept : ∀ p, Kept S (I p)
  top : ∀ v, I .rest v → S.top v
  initial : ∀ n, I .setup (.initial n)
  boot : ∀ v n, S.inv v → I .setup (v.boot n)
  wifi : ∀ b v, I .setup v → S.Chain [.to fun v => { v with wifiFlash := b }] (I .setup) v
  block : ∀ v, I .setup v → S.Chain [.to fun v => { v with BLOCK := true }] (I .setup) v
  tell : ∀ v, I .setup v → S.Chain [Lock.sending (.virtualWrite 1 [.int 1])] (I .ready) v
  started : ∀ v, I .ready v → I .rest v
  answer : ∀ r v, I .rest v → Answered r.rank v → v.pending r = true →
    S.Chain (Lock.answering r) (fun w => I (.after r w) w) v
  report : ∀ r v, I (.owing r) v →
    S.Chain [Lock.sending (.virtualWrite 1 [r.command.button])] (I .rest) v
  lost : ∀ v, I .rest v → S.Chain [Lock.saying .relayLost] (I .rest) v
  frame : ∀ v payload, I .rest v → payload ≠ "/" →
    S.Chain [Lock.saying (.frame payload)] (I .rest) v
  connect : ∀ v, I .rest v →
    S.Chain [Lock.saying (.frame "/"), Lock.resync v.timedownMinute] (I .rest) v
  tick : ∀ v, I .rest v → v.timedownMinute ≠ 0 → v.timedownMinute ≠ 1 →
    S.Chain [Lock.ticking] (I .rest) v
  expire : ∀ v, I .rest v → v.timedownMinute = 1 →
    S.Chain (Lock.ticking :: Lock.expiring) (I .rest) v
  drunk : ∀ v, I .rest v → v.isMatchFaceID = true →
    S.Chain [Lock.judging .isAlcohol .alcohol Verdict.Drunk] (I .rest) v
  sober : ∀ v, I .rest v → v.isMatchFaceID = true →
    S.Chain [Lock.judging .notAlcohol .notAlcohol Verdict.Sober] (I .rest) v

namespace Maintained

variable {S : Spec Env Lock} {I : Phase → Lock → Prop} (P : Platform)

theorem reported_of_after {A : Lock → Prop} {r : Request} (hr : r = .isAlcohol ∨ r = .notAlcohol)
    (v : Lock) (hv : I (.after r v) v ∧ A v) :
    Reported (fun v => I (.owing r) v ∧ A v) (fun v => I .rest v ∧ A v) v := by
  obtain ⟨hi, ha⟩ := hv
  constructor
  · intro hw
    rw [Phase.after, if_pos ⟨hr, hw⟩] at hi
    exact ⟨hi, ha⟩
  · intro hw
    rw [Phase.after, if_neg (by simp [hw])] at hi
    exact ⟨hi, ha⟩

/-- Neither the app nor a stored setting brings an answered test back. -/
theorem kept_answered {A : Lock → Prop} (h : Kept S A) {n : Nat} (hn : n ≤ 2) :
    Kept S fun v => A v ∧ Answered n v where
  inv v hv := h.inv v hv.1
  loosen v hv := by
    refine (h.loosen v hv.1).and_kept hv.2 ?_
    rintro m hm i v w hw hv
    obtain rfl := List.mem_singleton.1 hm
    obtain ⟨d, b, rfl⟩ := hw
    exact hv
  onV1 v p hv := by
    have hraise : ∀ r e i v w, 2 ≤ r.rank → Lock.raising r e i v w → Answered n v →
        Answered n w := by
      rintro r e i v _ hr rfl hv q hq
      have hne : q ≠ r := by
        rintro rfl
        omega
      simp [hne, hv q hq]
    have hsend : ∀ e i v w, Lock.sending e i v w → Answered n v → Answered n w := by
      rintro e i v _ rfl hv
      split <;> exact hv
    refine (h.onV1 v p hv.1).and_kept hv.2 ?_
    intro m hm i v w hw hv
    rw [List.mem_cons] at hm
    rcases hm with rfl | hm
    · obtain rfl := hw
      exact hv
    · unfold Lock.toggling at hm
      split at hm
      · simp only [List.mem_cons, List.not_mem_nil, or_false] at hm
        rcases hm with rfl | rfl
        · exact hsend _ i v w hw hv
        · exact hraise .unblockNow _ i v w (by decide) hw hv
      · simp only [List.mem_cons, List.not_mem_nil, or_false] at hm
        rcases hm with rfl | rfl
        · exact hsend _ i v w hw hv
        · exact hraise .blockNow _ i v w (by decide) hw hv

/-- The answer to a request moves the place on by one. -/
theorem chain_answered {Q : Lock → Prop} {r : Request} {v : Lock} (hv : Answered r.rank v)
    (h : S.Chain (Lock.answering r) Q v) :
    S.Chain (Lock.answering r) (fun w => Q w ∧ Answered (r.rank + 1) w) v := by
  refine ⟨h.1, fun i w hm hok => ⟨(h.2 i w hm hok).1, ?_⟩⟩
  obtain rfl := hm
  have h := (h.2 i _ rfl hok).2
  refine ⟨h.1, fun i w hm hok => ⟨(h.2 i w hm hok).1, ?_⟩⟩
  obtain rfl := hm
  have h := (h.2 i _ rfl hok).2
  refine ⟨h.1, fun i w hm hok => ⟨(h.2 i w hm hok).1, ?_⟩⟩
  obtain rfl := hm
  have h := (h.2 i _ rfl hok).2
  refine ⟨h.1, fun i w hm hok => ⟨(h.2 i w hm hok).1, (h.2 i w hm hok).2, fun q hq => ?_⟩⟩
  obtain rfl := hm
  by_cases hqr : q = r
  · simp [hqr]
  · have hlt : q.rank < r.rank := by
      cases q <;> cases r <;> simp [Request.rank] at hq hqr ⊢
    simpa [hqr] using hv q hlt

theorem answered_succ {r : Request} {v : Lock} (hv : Answered r.rank v) (hp : v.pending r = false) :
    Answered (r.rank + 1) v := by
  intro q hq
  by_cases hqr : q = r
  · rwa [hqr]
  · exact hv q (by cases q <;> cases r <;> simp [Request.rank] at hq hqr ⊢)

theorem updateWebsocket (h : Maintained S I) :
    S.Leads State.lock (I .rest) (updateWebsocket P) (I .rest) := by
  have hi := (h.kept .rest).inv
  have hk : ∀ p n, n ≤ 2 → Kept S fun v => I p v ∧ Answered n v :=
    fun p n hn => kept_answered (h.kept p) hn
  have hreport : ∀ r n v, I (.owing r) v ∧ Answered n v →
      S.Chain [Lock.sending (.virtualWrite 1 [r.command.button])]
        (fun w => I .rest w ∧ Answered n w) v := by
    intro r n v hv
    refine (h.report r v hv.1).and_kept hv.2 ?_
    intro m hm i v w hw hv
    obtain rfl := List.mem_singleton.1 hm
    obtain rfl := hw
    split <;> exact hv
  have hans : ∀ r n v, r.rank = n → I .rest v ∧ Answered n v → v.pending r = true →
      S.Chain (Lock.answering r) (fun w => I (.after r w) w ∧ Answered (n + 1) w) v := by
    rintro r _ v rfl hv hp
    exact chain_answered hv.2 (h.answer r v hv.1 hv.2 hp)
  have hskip : ∀ r n v, r.rank = n → I .rest v ∧ Answered n v → v.pending r = false →
      I .rest v ∧ Answered (n + 1) v := by
    rintro r _ v rfl hv hp
    exact ⟨hv.1, answered_succ hv.2 hp⟩
  have h0 : ∀ v, I .rest v → I .rest v ∧ Answered 0 v := fun v hv => ⟨hv, fun q hq => by omega⟩
  refine .seq (R := fun s => I .rest s.lock ∧ Answered 1 s.lock) ?_
    (.seq (R := fun s => I .rest s.lock ∧ Answered 2 s.lock) ?_
    (.seq (R := fun s => I .rest s.lock ∧ Answered 3 s.lock) ?_
    (.seq (R := fun s => I .rest s.lock) ?_ (Leads.both ?_ (Leads.done hi)))))
  · exact leads_answerIsAlcohol P hi (hk _ 1 (by omega)) (hk _ 1 (by omega))
      (fun v hv => hskip .isAlcohol 0 v rfl (h0 v hv))
      (fun v hv hp => (hans .isAlcohol 0 v rfl (h0 v hv) hp).imp (reported_of_after (.inl rfl)))
      (hreport .isAlcohol 1)
  · exact leads_answerNotAlcohol P (hk .rest 1 (by omega)).inv (hk _ 2 (by omega)) (hk _ 2 (by omega))
      (fun v hv => hskip .notAlcohol 1 v rfl hv)
      (fun v hv hp => (hans .notAlcohol 1 v rfl hv hp).imp (reported_of_after (.inr rfl)))
      (hreport .notAlcohol 2)
  · exact leads_answerBlockNow (A := fun v => I .rest v ∧ Answered 2 v) (fun v hv => hi v hv.1)
      (fun v hv => hi v hv.1) (fun v hv => hskip .blockNow 2 v rfl hv) fun v hv hp =>
      (hans .blockNow 2 v rfl hv hp).imp fun w hw => ⟨by simpa [Phase.after] using hw.1, hw.2⟩
  · exact leads_answerUnblockNow (A := fun v => I .rest v ∧ Answered 3 v) (fun v hv => hi v hv.1) hi
      (fun v hv _ => hv.1) fun v hv hp =>
      (h.answer .unblockNow v hv.1 hv.2 hp).imp fun w hw => by simpa [Phase.after] using hw
  · exact leads_checkRelay P hi (h.kept .rest) (fun _ hv => hv) (fun _ hv => hv) h.lost

theorem handleRequest (h : Maintained S I) (w : Option WebRequest) :
    S.Leads State.lock (I .rest) (handleRequest w) (I .rest) := by
  have hk := h.kept .rest
  cases w with
  | none => exact Leads.done hk.inv
  | some w =>
    cases w with
    | root => exact Leads.done hk.inv
    | caidat tenWiFi matkhau => exact hk.loose (K := fun _ => False) (fun _ hc => hc.elim) (still_caiDat tenWiFi matkhau)

theorem alcoholGate (h : Maintained S I) :
    S.Leads State.lock (I .rest) (alcoholGate P) (I .rest) := by
  have hk := h.kept .rest
  have hi := hk.inv
  refine Leads.choose (Leads.both (leads_delay hi _) (Leads.both ?_ (Leads.both (leads_delay hi _)
    (Leads.done hi)))) (Leads.done hi)
  exact Leads.get hi fun _ => Leads.get hi fun _ => Leads.get hi fun _ =>
    leads_readIsAlcohol P hk h.drunk h.sober _ _ _

theorem loopBody (h : Maintained S I) (online : Bool) :
    S.Leads State.lock (I .rest) (loopBody P online) (I .rest) := by
  have hk := h.kept .rest
  have hi := hk.inv
  refine Leads.both (Leads.poll hi fun i => h.handleRequest i.web) (Leads.both ?_ (Leads.both ?_
    (Leads.both (hk.still P (still_statusGate P online)) (Leads.both
    (leads_minuteGate hk h.tick h.expire) (Leads.both (h.alcoholGate P) (Leads.both (hk.blynkRun P)
    (Leads.both ?_ (Leads.both (leads_delay hi 10) (Leads.done hi)))))))))
  · exact Leads.poll hi fun i => leads_handleFrame P hk h.frame h.connect i.frame
  · exact Leads.choose (Leads.both (leads_idle hi fun _ => rfl) (Leads.both (h.updateWebsocket P)
      (Leads.done hi))) (Leads.done hi)
  · exact Leads.choose (Leads.poll hi fun i => hk.still P (still_handleTimer P i.timer))
      (Leads.done hi)

theorem loop (h : Maintained S I) : S.Leads State.lock (I .rest) (loop P) (I .rest) := by
  have hi := (h.kept .rest).inv
  refine Leads.choose (h.loopBody P false) (Leads.choose (h.loopBody P true) ?_)
  exact Leads.both (leads_idle hi fun _ => rfl) (Leads.both (leads_delay hi _)
    (Leads.both (.reset (stable hi)) (Leads.done hi)))

theorem testWiFi (h : Maintained S I) (n : Nat) :
    S.Leads State.lock (I .setup) (testWiFi (setupOnline P) setupOffline n) (I .setup) := by
  have hk := h.kept .setup
  have hi := hk.inv
  have hwifi : ∀ b, S.Leads State.lock (I .setup)
      (.set fun s => { s with wifiFlash := b }) (I .setup) :=
    fun b => leads_set (fun _ _ => rfl) (h.wifi b)
  have hled : ∀ b, StillApp P (setLed b) := fun _ _ _ => ⟨_, _, rfl⟩
  have hblink : StillApp P (.block [setLed false, delay 20, setLed true, delay 20]) :=
    ⟨hled _, still_delay _, hled _, still_delay _, trivial⟩
  induction n with
  | zero =>
    exact Leads.both (hk.still P (hled _)) (Leads.both (hwifi false) (Leads.both (leads_delay hi _)
      (Leads.done hi)))
  | succ n ih =>
    refine Leads.choose (Leads.both (hk.still P (hled _)) (Leads.both (leads_delay hi _)
      (Leads.both (hwifi true) (hk.still P ?_)))) (Leads.both (leads_delay hi _) ih)
    exact ⟨still_delay _, made_times hblink 7, rfl, still_delay _, hled _, still_delay _, trivial⟩

theorem setup (h : Maintained S I) : S.Leads State.lock (I .setup) (setup P) (I .rest) := by
  have hk := h.kept .setup
  have hk' := h.kept .ready
  have hi := hk.inv
  have hset : ∀ {f : State → State}, (∀ s, Loose s (f s)) →
      S.Leads State.lock (I .setup) (.set f) (I .setup) := fun hf => hk.still P (made_set hf)
  refine Triple.post (Q := fun s => I .ready s.lock) ?_ fun s hs => h.started s.lock hs
  have hall : StillApp P (.block [delay 20,
      virtualWrite P 6 fun _ => [.text "   Lỗi kết nối với Relay"], delay 20,
      .set fun s => { s with previousOneMinuteCounter := s.millis },
      .set fun s => { s with alcoholFlash := false }, .set fun s => s.emit .started]) :=
    ⟨still_delay _, still_virtualWrite P 6 _ (by decide), still_delay _, fun _ _ => ⟨_, _, rfl⟩,
      fun _ _ => ⟨_, _, rfl⟩, fun _ s => loose_emit s _ rfl, trivial⟩
  refine .seq (hset fun _ => ⟨_, _, rfl⟩) (.seq (hset fun _ => ⟨_, _, rfl⟩) (.seq
    (hset fun _ => ⟨_, _, rfl⟩) (.seq (hset fun _ => ⟨_, _, rfl⟩) (.seq
    (hset fun _ => ⟨_, _, rfl⟩) (.seq (hset fun _ => ⟨_, _, rfl⟩) ?_)))))
  refine .seq (hk.still P ⟨trivial, trivial⟩) (.seq (leads_delay hi _) (.seq
    (leads_idle hi fun s => lock_emit_idle s _ rfl) (.seq (leads_delay hi _) (.seq
    (h.testWiFi P 20) (.seq (leads_delay hi _) (.seq (hset fun _ => ⟨_, _, rfl⟩) ?_))))))
  exact .seq (leads_set (fun _ _ => rfl) h.block) (.seq (leads_delay hi _) (.seq
    (hk.send P (fun _ => rfl) rfl h.tell) (hk'.still P hall)))

theorem sketch (h : Maintained S I) :
    Triple (S.on State.lock) (fun s => I .setup s.lock) (device P).boot fun _ => False :=
  .seq (h.setup P) (.forever (fun s hs => h.top s.lock hs) (h.loop P))

end Maintained

theorem lock_powerOn (flash : Nat → UInt8) :
    (powerOn flash).lock = .initial (powerOn flash).duration := by
  ext r
  all_goals try rfl
  cases r <;> rfl

theorem lock_restart (s : State) : (restart s).lock = s.lock.boot (powerOn s.flash).duration := by
  ext r
  all_goals try rfl
  cases r <;> rfl

/-- What a spec assumes of a step of the program. -/
def Allowed (S : Spec Env Lock) (x : Choice Env Outside) (c d : Config State Env) : Prop :=
  match x with
  | .run i => S.ok i c.state.lock d.state.lock
  | _ => True

/-- What the lock does in one step: nothing beside the program, a move of the program, a reset. -/
def Lock.Moved (S : Spec Env Lock) (v w : Lock) : Prop :=
  S.good v w ∨ ∃ n, w = v.boot n

namespace Maintained

variable {S : Spec Env Lock} {I : Phase → Lock → Prop} (P : Platform)

theorem always (h : Maintained S I) (flash : Nat → UInt8) :
    Machine.Always (S.on State.lock) ((device P).start (powerOn flash)) := by
  refine Machine.always_start (h.sketch P) (s := powerOn flash) ?_
  rw [lock_powerOn]
  exact h.initial _

/-- Throughout a run of allowed steps the assertions hold and each step is a move of the spec. -/
theorem along (h : Maintained S I) (flash : Nat → UInt8) (xs : Run)
    (hx : (device P).Along (Allowed S) xs ((device P).start (powerOn flash))) :
    (device P).Along (fun _ c d => Machine.Always (S.on State.lock) c ∧
      Lock.Moved S c.state.lock d.state.lock ∧ Machine.Always (S.on State.lock) d) xs
      ((device P).start (powerOn flash)) := by
  have hr : ∀ s, (S.on State.lock).inv s → I .setup ((device P).restart s).lock := by
    intro s hs
    show I .setup (restart s).lock
    rw [lock_restart]
    exact h.boot s.lock _ hs
  have hm := Machine.along_always (h.sketch P) hr xs _ (h.always P flash) (hx.imp ?_)
  · refine hm.imp fun x c hc => ⟨hc.1, ?_, hc.2.2⟩
    rcases hc.2.1 with hd | ⟨r, -, -, hd⟩ | ⟨i, -, -, hd⟩
    · rw [hd]
      exact .inr ⟨_, lock_restart c.state⟩
    · have he : ((device P).step x c).state.lock = c.state.lock := hd
      rw [he]
      exact .inl (S.good_refl _)
    · exact .inl hd
  · intro x c hc
    cases x with
    | run i =>
      intro l t hst
      simpa [Allowed, Machine.step, hst] using hc
    | outside r => exact lock_react c.state r
    | reset => trivial

theorem reached (h : Maintained S I) (flash : Nat → UInt8) (xs : Run)
    (hx : (device P).Along (Allowed S) xs ((device P).start (powerOn flash))) :
    Machine.Always (S.on State.lock) (after P flash xs) :=
  (h.along P flash xs hx).invariant (h.always P flash) fun _ _ _ hd => hd.2.2

end Maintained

end Center
