import TruckLock.CenterAnswers

/-!
# The button of the app

The app shows the latest value of V1. The lock changes in `updateWebsocket`,
and who tells the app about it depends on the request: the handler of V1 has
told it before, the report of a test tells it afterwards, and the end of the
countdown does not tell it at all. As long as these do not cross each other,
the button is right whenever no request is pending.
-/
namespace Center

open Firmware Spec

/-- The value of V1 that an event sets. -/
def Event.onV1 : Event → Option Int
  | .app w => if w.pin = .V1 then some w.param.asInt else none
  | .virtualWrite pin [.int n] => if pin = 1 then some n else none
  | .reply pin [.int n] => if pin = 1 then some n else none
  | _ => none

def lastV1 (l : List Event) : Option Int := l.findSome? Event.onV1

theorem lastV1_cons {e : Event} (l : List Event) (he : e.onV1 = none) :
    lastV1 (e :: l) = lastV1 l := by
  simp [lastV1, he]

@[simp] theorem lastV1_broadcast (c : Command) (r : Option Request) (l : List Event) :
    lastV1 (.broadcast c r :: l) = lastV1 l := rfl

def bit (b : Bool) : Int := if b then 1 else 0

/-- The outcome of a test that has been answered and not yet been told to the app. -/
def untold : List Event → Option Request
  | [] => none
  | .boot :: _ => none
  | .broadcast _ (some .isAlcohol) :: _ => some .isAlcohol
  | .broadcast _ (some .notAlcohol) :: _ => some .notAlcohol
  | .broadcast _ _ :: _ => none
  | .virtualWrite pin _ :: l => if pin = 1 then none else untold l
  | _ :: l => untold l

namespace Lock

/-- What the reports that are still to come tell the app last. -/
def owed (v : Lock) : Option Bool :=
  if v.pending .notAlcohol || untold v.hist = some .notAlcohol then some false
  else if v.pending .isAlcohol || untold v.hist = some .isAlcohol then some true else none

/-- What `BLOCK` comes to when the pending requests have been answered. -/
def heading (v : Lock) : Bool :=
  if v.pending .unblockNow then false else if v.pending .blockNow then true
  else if v.pending .notAlcohol then false else v.pending .isAlcohol || v.BLOCK

/-- What the button comes to. -/
def shown (v : Lock) : Option Int :=
  match v.owed with
  | some b => some (bit b)
  | none => lastV1 v.hist

/-- With Wi-Fi, an event that the button and the lock take differently: a write of the app
against a report that is still to come, a verdict against a request of the app, the end of the
countdown on an unlocked truck, and the value that `setup` writes against an earlier request. -/
def crossed (v : Lock) (e : Event) : Bool :=
  v.wifiFlash && match e with
  | .app w => w.pin = .V1 &&
    if v.BLOCK then v.owed = some true else v.pending .unblockNow != decide (v.owed = some false)
  | .alcohol _ => v.pending .unblockNow && !v.pending .notAlcohol
  | .notAlcohol _ => v.pending .blockNow && !v.pending .unblockNow
  | .expired => !v.pending .unblockNow && !v.pending .blockNow &&
    (v.pending .notAlcohol || !v.pending .isAlcohol && !v.BLOCK)
  | .virtualWrite pin _ => pin = 1 && untold v.hist = none && v.pending .unblockNow
  | _ => false

end Lock

namespace Phase

/-- The report of the phase. -/
def report : Phase → Option Request
  | .owing r => some r
  | _ => none

end Phase

namespace Button

def spec : Spec Env Lock where
  ok i v w := i.link = true ∧ ∀ e, w.hist = e :: v.hist → v.crossed e = false
  good _ _ := True
  good_refl _ := trivial
  inv _ := True
  top v := v.wifiFlash = true → (∀ r, v.pending r = false) → lastV1 v.hist = some (bit v.BLOCK)
  fin _ := True

/-- After `setup` has written V1, the button and the lock come to the same. -/
structure Inv (p : Phase) (v : Lock) : Prop where
  setup : p = .setup → v.BLOCK = true ∧ untold v.hist = none ∧ ∀ r, v.pending r = true → r = .unblockNow
  shown : p ≠ .setup → v.wifiFlash = true → v.shown = some (bit v.heading)
  report : p ≠ .setup → v.wifiFlash = true → untold v.hist = p.report
  order : p = .owing .notAlcohol → v.wifiFlash = true → v.pending .isAlcohol = false

variable {p : Phase} {v w : Lock}

theorem chain_spec {m : Move Env Lock} {ms : List (Move Env Lock)} {A : Lock → Prop} :
    spec.Chain (m :: ms) A v ↔ ∀ i w, m i v w → i.link = true →
      (∀ e, w.hist = e :: v.hist → v.crossed e = false) → spec.Chain ms A w := by
  constructor
  · exact fun h i w hm hl hc => (h.2 i w hm ⟨hl, hc⟩).2
  · exact fun h => ⟨trivial, fun i w hm hok => ⟨trivial, h i w hm hok.1 hok.2⟩⟩

/-- Steps that neither the lock nor the button notices. -/
theorem Inv.same (hv : Inv p v) (hb : w.BLOCK = v.BLOCK) (hp : w.pending = v.pending)
    (hw : w.wifiFlash = v.wifiFlash) (hl : lastV1 w.hist = lastV1 v.hist)
    (hu : untold w.hist = untold v.hist) : Inv p w := by
  have hs : w.shown = v.shown := by simp only [Lock.shown, Lock.owed, hp, hl, hu]
  have hh : w.heading = v.heading := by simp only [Lock.heading, hp, hb]
  refine ⟨?_, ?_, ?_, ?_⟩
  · rw [hb, hp, hu]
    exact hv.setup
  · rw [hs, hh, hw]
    exact hv.shown
  · rw [hu, hw]
    exact hv.report
  · rw [hp, hw]
    exact hv.order

/-- A write of the app on V1 that no report crosses. -/
theorem Inv.asked (hv : Inv p v) {q : Param} (hc : v.crossed (.app ⟨.V1, q⟩) = false)
    (hb : w.BLOCK = v.BLOCK) (hw : w.wifiFlash = v.wifiFlash)
    (hp : w.pending = (v.put (if v.BLOCK then .unblockNow else .blockNow) true).pending)
    (hl : lastV1 w.hist = some (bit !v.BLOCK)) (hu : untold w.hist = untold v.hist) : Inv p w := by
  have hown : w.owed = v.owed := by
    simp only [Lock.owed, hp, hu, Lock.put_pending]
    cases v.BLOCK <;> rfl
  refine ⟨fun h => ?_, fun h hwifi => ?_, ?_, fun h hwifi => ?_⟩
  · obtain ⟨hB, hu', hr⟩ := hv.setup h
    refine ⟨hb.trans hB, hu.trans hu', fun r hrr => ?_⟩
    by_contra hne
    simp only [hp, hB, if_true, Lock.put_pending, hne, if_false] at hrr
    exact hne (hr r hrr)
  · have hs := hv.shown h (hw ▸ hwifi)
    simp only [Lock.crossed, ← hw, hwifi, Bool.true_and, decide_true] at hc
    simp only [Lock.shown, hown, hl]
    cases hB : v.BLOCK with
    | true =>
      have hh : w.heading = false := by simp [Lock.heading, hp, hB]
      rw [hh]
      simp only [hB, if_true, decide_eq_false_iff_not] at hc
      cases ho : v.owed with
      | none => rfl
      | some b => cases b <;> simp_all
    | false =>
      simp only [hB, Bool.false_eq_true, if_false, bne_eq_false_iff_eq] at hc
      cases hun : v.pending .unblockNow with
      | true =>
        have hh : w.heading = false := by simp [Lock.heading, hp, hB, hun]
        have ho : v.owed = some false := of_decide_eq_true (hc.symm.trans hun)
        rw [hh, ho]
      | false =>
        have hh : w.heading = true := by simp [Lock.heading, hp, hB, hun]
        rw [hh]
        cases ho : v.owed with
        | none => rfl
        | some b => cases b <;> simp_all
  · rw [hu, hw]
    exact hv.report
  · have ho := hv.order h (hw ▸ hwifi)
    cases hB : v.BLOCK <;> simp [hp, hB, ho]

theorem Inv.chain_say {e : Event} (hv : Inv p v) (h1 : e.onV1 = none)
    (hu : untold (e :: v.hist) = untold v.hist) : spec.Chain [Lock.saying e] (Inv p) v := by
  rw [chain_spec]
  rintro i _ rfl - -
  exact hv.same rfl rfl rfl (by simp [lastV1, h1]) hu

theorem kept (p : Phase) : Kept spec (Inv p) where
  inv _ _ := trivial
  loosen v hv := by
    rw [chain_spec]
    rintro i _ ⟨n, b, rfl⟩ - -
    exact hv.same rfl rfl rfl rfl rfl
  onV1 v q hv := by
    rw [chain_spec]
    rintro i _ rfl - hc
    have hc := hc _ rfl
    cases hb : v.BLOCK with
    | true =>
      rw [Lock.toggling, if_pos rfl, chain_spec]
      rintro j _ rfl hl -
      rw [if_pos hl, chain_spec]
      rintro k _ rfl - -
      exact hv.asked hc rfl rfl (by simp [hb]; rfl) (by rw [hb]; rfl) rfl
    | false =>
      rw [Lock.toggling, if_neg (by simp), chain_spec]
      rintro j _ rfl hl -
      rw [if_pos hl, chain_spec]
      rintro k _ rfl - -
      exact hv.asked hc rfl rfl (by simp [hb]; rfl) (by rw [hb]; rfl) rfl

/-- The answer to a request, given that the requests before it have been answered. -/
theorem Inv.answered (hv : Inv .rest v) {r : Request} (ha : Answered r.rank v)
    (hp : v.pending r = true) : Inv (.after r (v.answered r)) (v.answered r) := by
  refine ⟨fun h => absurd h (Phase.after_ne_setup r _), fun _ hw => ?_, fun _ hw => ?_, fun h hw => ?_⟩
  · have hs := hv.shown (by simp) hw
    have hu := hv.report (by simp) hw
    have ha' := fun q => ha q
    cases r with
    | isAlcohol =>
      cases hn : v.pending .notAlcohol <;> cases hk : v.pending .blockNow <;>
        cases hun : v.pending .unblockNow <;>
        simp_all [Lock.shown, Lock.owed, Lock.heading, untold, Phase.report]
    | notAlcohol =>
      have h0 := ha .isAlcohol (by decide)
      cases hk : v.pending .blockNow <;> cases hun : v.pending .unblockNow <;>
        simp_all [Lock.shown, Lock.owed, Lock.heading, untold, Phase.report]
    | blockNow =>
      have h0 := ha .isAlcohol (by decide)
      have h1 := ha .notAlcohol (by decide)
      cases hun : v.pending .unblockNow <;>
        simp_all [Lock.shown, Lock.owed, Lock.heading, untold, Phase.report]
    | unblockNow =>
      have h0 := ha .isAlcohol (by decide)
      have h1 := ha .notAlcohol (by decide)
      have h2 := ha .blockNow (by decide)
      simp_all [Lock.shown, Lock.owed, Lock.heading, untold, Phase.report]
  · have hw' : v.wifiFlash = true := hw
    cases r <;> simp [Phase.after, hw', untold, Phase.report]
  · have hw' : v.wifiFlash = true := hw
    cases r <;> simp [Phase.after, hw'] at h
    exact ha .isAlcohol (by decide)

theorem chain_answer {r : Request} (hv : Inv .rest v) (ha : Answered r.rank v)
    (hp : v.pending r = true) :
    spec.Chain (Lock.answering r) (fun w => Inv (.after r w) w) v := by
  rw [Lock.answering, chain_spec]
  rintro _ _ rfl - -
  rw [chain_spec]
  rintro _ _ rfl - -
  rw [chain_spec]
  rintro _ _ rfl - -
  rw [chain_spec]
  rintro _ _ rfl - -
  exact hv.answered ha hp

theorem untold_cases (l : List Event) :
    untold l = none ∨ untold l = some .isAlcohol ∨ untold l = some .notAlcohol := by
  fun_induction untold l <;> simp_all

/-- The report of an outcome. -/
theorem chain_report {r : Request} (hv : Inv (.owing r) v) :
    spec.Chain [Lock.sending (.virtualWrite 1 [r.command.button])] (Inv .rest) v := by
  rw [chain_spec]
  rintro i _ rfl hl -
  rw [if_pos hl]
  refine ⟨by simp, fun _ hw => ?_, fun _ _ => rfl, by simp⟩
  have hs := hv.shown (by simp) hw
  have hu : untold v.hist = some r := hv.report (by simp) hw
  have ho := hv.order
  have hr : r = .isAlcohol ∨ r = .notAlcohol := by simpa [hu] using untold_cases v.hist
  have hh : (v.say (.virtualWrite 1 [r.command.button])).heading = v.heading := rfl
  rw [hh, ← hs]
  rcases hr with rfl | rfl
  · cases hn : v.pending .notAlcohol <;> cases hp : v.pending .isAlcohol <;>
      simp [Lock.shown, Lock.owed, hn, hp, hu, untold, lastV1, Event.onV1, Command.button, bit]
  · have h0 := ho rfl hw
    cases hn : v.pending .notAlcohol <;>
      simp [Lock.shown, Lock.owed, hn, h0, hu, untold, lastV1, Event.onV1, Command.button, bit]

/-- The value that `setup` writes, unless the app has asked for something before. -/
theorem chain_tell (hv : Inv .setup v) :
    spec.Chain [Lock.sending (.virtualWrite 1 [.int 1])] (Inv .ready) v := by
  rw [chain_spec]
  rintro i _ rfl hl hc
  rw [if_pos hl] at hc ⊢
  obtain ⟨hb, hu, hr⟩ := hv.setup rfl
  refine ⟨by simp, fun _ hw => ?_, fun _ _ => rfl, by simp⟩
  have hwifi : v.wifiFlash = true := hw
  have hun : v.pending .unblockNow = false := by
    simpa [Lock.crossed, hwifi, hu] using hc _ rfl
  have hnone : ∀ r, v.pending r = false := by
    intro r
    by_contra h
    rw [Bool.not_eq_false] at h
    rw [hr r h, hun] at h
    exact Bool.false_ne_true h
  simp [Lock.shown, Lock.owed, Lock.heading, hnone, hb, untold, lastV1, Event.onV1, bit]

/-- A verdict that no request of the app crosses. -/
theorem Inv.judged (hv : Inv .rest v) {r : Request} {e : Event}
    (hr : r = .isAlcohol ∧ (v.wifiFlash = true → v.pending .unblockNow = true →
        v.pending .notAlcohol = true) ∨
      r = .notAlcohol ∧ (v.wifiFlash = true → v.pending .blockNow = true →
        v.pending .unblockNow = true))
    (hu : untold (e :: v.hist) = untold v.hist) : Inv .rest ((v.put r true).say e) := by
  refine ⟨by simp, fun h hw => ?_, fun h hw => ?_, by simp⟩
  · have hs := hv.shown h hw
    have hu' : untold v.hist = none := hv.report h hw
    have hw' : v.wifiFlash = true := hw
    rcases hr with ⟨rfl, hr⟩ | ⟨rfl, hr⟩
    · have hr := hr hw'
      cases hn : v.pending .notAlcohol <;> cases hk : v.pending .blockNow <;>
        cases hun : v.pending .unblockNow <;>
        simp_all [Lock.shown, Lock.owed, Lock.heading, bit]
    · have hr := hr hw'
      cases hk : v.pending .blockNow <;> cases hun : v.pending .unblockNow <;>
        simp_all [Lock.shown, Lock.owed, Lock.heading, bit]
  · exact hu.trans (hv.report h hw)

/-- The end of a countdown that a pending request decides. -/
theorem chain_expire (hv : Inv .rest v) :
    spec.Chain (Lock.ticking :: Lock.expiring) (Inv .rest) v := by
  rw [chain_spec]
  rintro _ _ rfl - -
  rw [Lock.expiring, chain_spec]
  rintro _ _ rfl - hc
  rw [chain_spec]
  rintro _ _ rfl - -
  refine ⟨by simp, fun h hw => ?_, hv.report, by simp⟩
  have hwifi : v.wifiFlash = true := hw
  have hs := hv.shown h hwifi
  have hc := hc .expired rfl
  have hh : v.heading = !v.pending .unblockNow := by
    simp only [Lock.crossed, hwifi, Bool.true_and] at hc
    unfold Lock.heading
    cases hun : v.pending .unblockNow <;> cases hk : v.pending .blockNow <;>
      cases hn : v.pending .notAlcohol <;> cases ha : v.pending .isAlcohol <;> simp_all
  calc (({ v with timedownMinute := v.timedownMinute - 1 }.put .blockNow true).say .expired).shown
      = v.shown := rfl
    _ = some (bit v.heading) := hs
    _ = _ := by
      rw [hh]
      cases hun : v.pending .unblockNow <;> simp [Lock.heading, hun]

theorem maintained : Maintained spec Inv where
  kept := kept
  top v hv hw hp := by
    have hs := hv.shown (by simp) hw
    have hu : untold v.hist = none := hv.report (by simp) hw
    simpa [Lock.shown, Lock.owed, Lock.heading, hp, hu] using hs
  initial n := ⟨fun _ => ⟨rfl, rfl, fun r h => by simp [Lock.initial] at h⟩, by simp, by simp, by simp⟩
  boot v n _ := ⟨fun _ => ⟨rfl, rfl, fun r h => by simp [Lock.boot] at h⟩, by simp, by simp, by simp⟩
  wifi b v hv := by
    rw [chain_spec]
    rintro _ _ rfl - -
    exact ⟨hv.setup, by simp, by simp, by simp⟩
  block v hv := by
    rw [chain_spec]
    rintro _ _ rfl - -
    exact ⟨fun h => ⟨rfl, (hv.setup h).2⟩, by simp, by simp, by simp⟩
  tell v hv := chain_tell hv
  started v hv := ⟨by simp, fun _ => hv.shown (by simp), fun _ => hv.report (by simp), by simp⟩
  answer r v hv ha hp := chain_answer hv ha hp
  report r v hv := chain_report hv
  lost v hv := hv.chain_say rfl rfl
  frame v payload hv _ := hv.chain_say rfl rfl
  connect v hv := by
    rw [chain_spec]
    rintro _ _ rfl - -
    rw [Lock.resync, chain_spec]
    rintro _ _ rfl - -
    refine ⟨by simp, fun h hw => ?_, fun _ _ => rfl, by simp⟩
    have hu : untold v.hist = none := hv.report h hw
    have hl : lastV1 (.frame "/" :: v.hist) = lastV1 v.hist := rfl
    refine Eq.trans ?_ (hv.shown h hw)
    simp [Lock.shown, Lock.owed, hu, untold, hl]
  tick v hv _ _ := by
    rw [chain_spec]
    rintro _ _ rfl - -
    exact hv.same rfl rfl rfl rfl rfl
  expire v hv _ := chain_expire hv
  drunk v hv _ := by
    rw [chain_spec]
    rintro _ _ ⟨x, -, -, rfl⟩ - hc
    refine hv.judged (.inl ⟨rfl, fun hw hun => ?_⟩) rfl
    simpa [Lock.crossed, hw, hun] using hc _ rfl
  sober v hv _ := by
    rw [chain_spec]
    rintro _ _ ⟨x, -, -, rfl⟩ - hc
    refine hv.judged (.inr ⟨rfl, fun hw hk => ?_⟩) rfl
    simpa [Lock.crossed, hw, hk] using hc _ rfl

theorem onV1_of_idle {e : Event} (he : e.onLock = false) : e.onV1 = none := by
  cases e with
  | app w =>
    have hw : w.pin ≠ .V1 := by simpa [Event.onLock] using he
    simp [Event.onV1, hw]
  | virtualWrite pin l =>
    have hp : pin ≠ 1 := by simpa [Event.onLock] using he
    unfold Event.onV1
    split <;> simp_all
  | reply pin l =>
    have hp : pin ≠ 1 := by simpa [Event.onLock] using he
    unfold Event.onV1
    split <;> simp_all
  | _ => rfl

theorem lastV1_filter (l : List Event) : lastV1 (l.filter Event.onLock) = lastV1 l := by
  induction l with
  | nil => rfl
  | cons e l ih =>
    cases he : e.onLock with
    | true =>
      rw [List.filter_cons_of_pos he]
      cases hv : e.onV1 with
      | none => rw [lastV1_cons _ hv, lastV1_cons _ hv, ih]
      | some n => simp [lastV1, hv]
    | false => rw [List.filter_cons_of_neg (by simp [he]), ih, lastV1_cons l (onV1_of_idle he)]

end Button

def linked : Choice Env Outside → Bool
  | .run i => i.link
  | _ => true

/-- The link to the app loses nothing, and nothing crosses on it. -/
def Uncrossed (x : Choice Env Outside) (s t : State) : Prop :=
  linked x = true ∧ ∀ e ∈ s.during t, s.lock.crossed e = false

instance (x : Choice Env Outside) (s t : State) : Decidable (Uncrossed x s t) :=
  inferInstanceAs (Decidable (_ ∧ _))

theorem Uncrossed.ok {s t : State} {i : Env} (h : Uncrossed (.run i) s t) (hg : Grew s t) :
    Button.spec.ok i s.lock t.lock := by
  refine ⟨h.1, fun e he => h.2 e ?_⟩
  simp [during_of_log (log_of_filter hg he)]

/-- As long as nothing crosses, the button of the app is right between two rounds of `loop` in
which nothing is pending. -/
theorem button_right (P : Platform) (flash : Nat → UInt8) (xs : Run)
    (hx : (device P).Along (fun x c d => Uncrossed x c.state d.state) xs
      ((device P).start (powerOn flash)))
    (hk : (after P flash xs).code = [.forever (loop P)])
    (hw : (after P flash xs).state.wifiFlash = true)
    (hp : ∀ r, (after P flash xs).state.pending r = false) :
    lastV1 (after P flash xs).state.log = some (bit (after P flash xs).state.BLOCK) := by
  have ha : Machine.Always (Button.spec.on State.lock) (after P flash xs) := by
    refine Button.maintained.reached P flash xs ((hx.and (along_grew P flash xs)).imp fun x c h => ?_)
    cases x with
    | run i => exact Uncrossed.ok h.1 h.2
    | outside r => trivial
    | reset => trivial
  exact (Button.lastV1_filter _).symm.trans (ha.top hk hw hp)

set_option maxRecDepth 10000 in
theorem button_right_tapped :
    (after bench (flashOf 5) tapped).state.BLOCK = false ∧
    lastV1 (after bench (flashOf 5) tapped).state.log =
      some (bit (after bench (flashOf 5) tapped).state.BLOCK) :=
  ⟨by decide +kernel, button_right bench (flashOf 5) tapped (by decide +kernel) rfl (by decide +kernel)
    fun r => by cases r <;> decide +kernel⟩

/-- A countdown of one minute ends, and the lock request that it raises is answered. -/
def expired : Run := tapped ++ pause 60000 ++ idle 80 ++ pause 1001 ++ idle 75

set_option maxRecDepth 10000 in
/-- The end of the countdown locks the truck, and the button keeps showing it as unlocked. -/
theorem button_can_be_wrong : ¬ ∀ (P : Platform) (flash : Nat → UInt8) (xs : Run),
    (device P).Along (fun x _ _ => linked x = true) xs ((device P).start (powerOn flash)) →
    (after P flash xs).code = [.forever (loop P)] →
    (after P flash xs).state.wifiFlash = true →
    (∀ r, (after P flash xs).state.pending r = false) →
    lastV1 (after P flash xs).state.log = some (bit (after P flash xs).state.BLOCK) := by
  intro h
  have h := h bench (flashOf 1) expired (by decide +kernel) rfl (by decide +kernel)
    fun r => by cases r <;> decide +kernel
  revert h
  decide +kernel

end Center
