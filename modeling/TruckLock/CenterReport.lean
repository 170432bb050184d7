import TruckLock.CenterAlarm
import TruckLock.CenterLog
import TruckLock.History

/-!
# The concentration that is reported

`updateWebsocket` reports the global that every sample computes, up to a second
after the verdict. It is the one of the verdict's `MAX` as long as no sample is
taken while the flag waits.
-/
namespace Center

open Firmware Spec History

/-- The latest verdict of alcohol since the device has started. -/
def lastAlcohol : List Event → Option Verdict
  | [] => none
  | .boot :: _ => none
  | .alcohol a :: _ => some a
  | _ :: l => lastAlcohol l

theorem lastAlcohol_filter (l : List Event) : lastAlcohol (l.filter Event.onAlarm) = lastAlcohol l := by
  refine summary_filter (fun e l l' h => ?_) (fun e l he => ?_) l
  · cases e <;> first | rfl | exact h
  · cases e <;> first | rfl | simp [Event.onAlarm] at he

namespace Event

/-- The report of a concentration on V3. -/
def reports : Event → Bool
  | .virtualWrite 3 values => values ≠ noAlcohol
  | _ => false

/-- The end of a sample. -/
def looks : Event → Bool
  | .camera _ => true
  | _ => false

end Event

/-- What V3 shows of a concentration. -/
def concentration (q : Rat) : List Value :=
  if q ≤ 2 then [.text "Nồng độ cồn: ", .real q 3, .text " mg/L"] else [.text "Nồng độ cồn: > 2 mg/L"]

namespace Alarm

variable (P : Platform)

/-- The concentration is the one of the latest verdict. -/
def Told (v : Alarm) : Prop :=
  ∃ a, lastAlcohol v.hist = some a ∧ v.milligramsPerLiter = P.milligrams a.MAX

def spec : Spec Env Alarm where
  ok _ v w := ∀ level, w.hist = .camera level :: v.hist → v.isAlcoholState = false
  good v w := ∀ values, w.hist = .virtualWrite 3 values :: v.hist → ∃ a, lastAlcohol v.hist = some a ∧
    v.milligramsPerLiter = P.milligrams a.MAX ∧ values = concentration (P.milligrams a.MAX)
  good_refl v values h := by simp at h
  inv _ := True
  top _ := True
  fin _ := True

/-- The limits come from cells, so they are not negative. -/
structure Limits (v : Alarm) : Prop where
  upLimit : 0 ≤ v.upLimit
  threshold : 0 ≤ v.threshold

def Measured (v : Alarm) : Prop := 0 < v.MAX → v.milligramsPerLiter = P.milligrams v.MAX

def Flagged (v : Alarm) : Prop := v.isAlcoholState = true → Told P v

/-- What does not depend on the extremes, the limits or the table. -/
structure Closed (A : Alarm → Prop) : Prop where
  press : ∀ v, A v → A { v with MAX := 0 }
  upLimit : ∀ v n, 0 ≤ n → A v → A { v with upLimit := n }
  threshold : ∀ v n, 0 ≤ n → A v → A { v with threshold := n }
  row : ∀ v n b c, A v → A { v with rowIndex := n, ram := b, cell := c }
  say : ∀ v e, (∀ l, lastAlcohol (e :: l) = lastAlcohol l) → A v → A (v.say e)

namespace Closed

variable {A B : Alarm → Prop}

theorem and (hA : Closed A) (hB : Closed B) : Closed fun v => A v ∧ B v where
  press v h := ⟨hA.press v h.1, hB.press v h.2⟩
  upLimit v n hn h := ⟨hA.upLimit v n hn h.1, hB.upLimit v n hn h.2⟩
  threshold v n hn h := ⟨hA.threshold v n hn h.1, hB.threshold v n hn h.2⟩
  row v n b c h := ⟨hA.row v n b c h.1, hB.row v n b c h.2⟩
  say v e he h := ⟨hA.say v e he h.1, hB.say v e he h.2⟩

theorem limits : Closed Limits where
  press _ h := ⟨h.upLimit, h.threshold⟩
  upLimit _ _ hn h := ⟨hn, h.threshold⟩
  threshold _ _ hn h := ⟨h.upLimit, hn⟩
  row _ _ _ _ h := ⟨h.upLimit, h.threshold⟩
  say _ _ _ h := ⟨h.upLimit, h.threshold⟩

theorem measured : Closed (Measured P) where
  press _ _ h := absurd h (lt_irrefl _)
  upLimit _ _ _ h := h
  threshold _ _ _ h := h
  row _ _ _ _ h := h
  say _ _ _ h := h

theorem told : Closed (Told P) where
  press _ h := h
  upLimit _ _ _ h := h
  threshold _ _ _ h := h
  row _ _ _ _ h := h
  say v e he h := by
    obtain ⟨a, ha, hm⟩ := h
    exact ⟨a, (he v.hist).trans ha, hm⟩

theorem flagged : Closed (Flagged P) where
  press v h hf := (told P).press v (h hf)
  upLimit v n hn h hf := (told P).upLimit v n hn (h hf)
  threshold v n hn h hf := (told P).threshold v n hn (h hf)
  row v n b c h hf := (told P).row v n b c (h hf)
  say v e he h hf := (told P).say v e he (h hf)

/-- A fact about the concentration and the flag alone. -/
theorem pure (p : Rat → Bool → Prop) : Closed fun v => p v.milligramsPerLiter v.isAlcoholState where
  press _ h := h
  upLimit _ _ _ h := h
  threshold _ _ _ h := h
  row _ _ _ _ h := h
  say _ _ _ h := h

end Closed

variable {P} {A B : Alarm → Prop}

theorem good_same {v w : Alarm} (h : w.hist = v.hist) : (spec P).good v w := by
  intro values hw
  simp [h] at hw

theorem good_say {v w : Alarm} {e : Event} (hw : w.hist = e :: v.hist) (he : ∀ values, e ≠ .virtualWrite 3 values) :
    (spec P).good v w := by
  intro values hv
  exact absurd (List.cons.inj (hw.symm.trans hv)).1 (he values)

theorem Closed.steady (h : Closed A) : (spec P).Steady Beside A where
  inv _ _ := trivial
  rel := by
    rintro v _ hv (rfl | rfl)
    · exact hv
    · exact h.press v hv

abbrev Follows (P : Platform) (A : Alarm → Prop) (c : Sketch) (B : Alarm → Prop) : Prop :=
  (spec P).Amid Beside State.alarm A c B

/-- A statement that does not log. -/
theorem Closed.set (h : Closed A) {f : State → State} (hf : ∀ s, A s.alarm → B (f s).alarm)
    (hl : ∀ s, (f s).log = s.log) : Follows P A (.set f) B :=
  Amid.step h.steady fun _ s hs _ => ⟨good_same (congrArg (List.filter Event.onAlarm) (hl s)), hf s hs⟩

/-- A statement that logs an event of an alarm, other than the report on V3. -/
theorem Closed.emit (h : Closed A) {e : State → Event} (ho : ∀ s, (e s).onAlarm = true)
    (hl : ∀ s l, lastAlcohol (e s :: l) = lastAlcohol l) (h3 : ∀ s values, e s ≠ .virtualWrite 3 values) :
    Follows P A (.set fun s => s.emit (e s)) A := by
  refine Amid.step h.steady fun _ s hs _ => ?_
  rw [alarm_emit s _ (ho s)]
  exact ⟨good_say rfl (h3 s), h.say _ _ (hl s) hs⟩

theorem Closed.lasting (h : Closed A) : Lasting P (spec P) A where
  steady := h.steady
  written := by
    intro v w hv hw
    cases hw with
    | same => exact ⟨good_same rfl, hv⟩
    | upLimit n hn => exact ⟨good_same rfl, h.upLimit v n hn hv⟩
    | threshold n hn => exact ⟨good_same rfl, h.threshold v n hn hv⟩
    | commit => exact ⟨good_same rfl, h.row v v.rowIndex v.ram v.ram hv⟩
  clear _ := by
    refine amid_clear P h.steady h.steady (fun hp => Amid.step h.steady fun _ s hs _ => ?_)
      (h.set (fun s hs => h.row _ 1 _ _ hs) fun _ => rfl)
    rw [alarm_emit s _ (by simp [Event.onAlarm, AppWrite.clears, hp])]
    exact ⟨good_say rfl (by simp), h.say _ _ (fun _ => rfl) hs⟩

/-- Between two samples. -/
def Steadied (P : Platform) (v : Alarm) : Prop := (Limits v ∧ Flagged P v) ∧ Measured P v

theorem closed_steadied : Closed (Steadied P) := (Closed.limits.and (Closed.flagged P)).and (Closed.measured P)

theorem lasting_steadied : Lasting P (spec P) (Steadied P) := closed_steadied.lasting

theorem follows_sample : Follows P (Steadied P) (sample P) (Steadied P) := by
  have hfold : Closed fun v => Limits v ∧ Flagged P v := Closed.limits.and (Closed.flagged P)
  have hquiet : Closed fun v => Limits v ∧ v.isAlcoholState = false :=
    Closed.limits.and (Closed.pure fun _ b => b = false)
  have hfolded : Follows P (Steadied P) (.get (fun _ s => s.current) fun current => .block [
      .when (fun _ s => s.MAX < current) (.set fun s => { s with MAX := current }),
      .when (fun _ s => current < s.MIN) (.set fun s => { s with MIN := current })])
      fun v => Limits v ∧ Flagged P v := by
    refine Amid.get closed_steadied.steady fun current => ?_
    have hmax : Follows P (fun v => Limits v ∧ Flagged P v) (.set fun s => { s with MAX := current })
        fun v => Limits v ∧ Flagged P v :=
      hfold.set (fun s hs => ⟨⟨hs.1.upLimit, hs.1.threshold⟩, hs.2⟩) fun _ => rfl
    exact .seq ((Amid.choose hmax (Amid.done hfold.steady)).pre closed_steadied.steady.stable fun _ hs => hs.1)
      (hfold.lasting.unseen ⟨⟨fun _ _ => rfl, trivial⟩, trivial⟩)
  have hlook : Follows P (fun v => Limits v ∧ Flagged P v)
      (.act fun i s => { s with camLevel := i.camRX }.emit (.camera i.camRX))
      fun v => Limits v ∧ v.isAlcoholState = false := by
    refine Amid.step hfold.steady fun i s hs hok => ?_
    rw [alarm_emit _ _ rfl] at hok ⊢
    exact ⟨good_say rfl (by simp), ⟨hs.1.upLimit, hs.1.threshold⟩, hok i.camRX rfl⟩
  have hstore : Follows P (fun v => Limits v ∧ v.isAlcoholState = false)
      (.set fun s => { s with milligramsPerLiter := P.milligrams s.MAX }) (Steadied P) := by
    refine hquiet.set (fun s hs => ⟨⟨⟨hs.1.upLimit, hs.1.threshold⟩, fun hf => ?_⟩, fun _ => rfl⟩) fun _ => rfl
    exact absurd (hf.symm.trans hs.2) (by simp)
  exact .seq (lasting_steadied.unseen fun _ _ => rfl) (.seq (lasting_steadied.unseen fun _ s =>
    alarm_emit_idle { s with current := _ } _ rfl) (.seq hfolded (.seq hlook (.seq
    (hquiet.lasting.unseen ⟨fun _ _ => rfl, trivial⟩) (.seq hstore (Amid.done closed_steadied.steady))))))

/-- The verdict of alcohol has a positive `MAX`, and its concentration is the current one. -/
theorem follows_judge {downLimit upLimit threshold : Int} (hu : 0 ≤ upLimit) (ht : 0 ≤ threshold) :
    Follows P (Steadied P) (judge downLimit upLimit threshold) (Steadied P) := by
  have hmax : ∀ M : Int, Closed fun v => Steadied P v ∧ (0 < M → v.milligramsPerLiter = P.milligrams M) :=
    fun M => closed_steadied.and (Closed.pure fun q _ => 0 < M → q = P.milligrams M)
  refine Triple.get (R := fun M s => Steadied P s.alarm ∧ (0 < M → s.alarm.milligramsPerLiter = P.milligrams M))
    closed_steadied.steady.stable (fun _ _ s hs _ => ⟨hs, fun h => hs.2 h⟩) fun M => ?_
  refine Amid.known (b := decide (upLimit < M - threshold)) (hmax M).steady (fun _ _ _ => rfl) ?_
  by_cases hM : upLimit < M - threshold
  · simp only [hM, decide_true, if_true]
    refine Amid.step (hmax M).steady fun _ s hs _ => ?_
    rw [alarm_emit _ _ rfl]
    refine ⟨good_say rfl (by simp), ⟨⟨hs.1.1.1.upLimit, hs.1.1.1.threshold⟩, fun _ => ?_⟩, hs.1.2⟩
    exact ⟨_, rfl, hs.2 (by omega)⟩
  · simp only [hM, decide_false]
    refine Triple.post (Q := fun s => Steadied P s.alarm ∧ _) ((hmax M).lasting.unseen ?_) fun _ hs => hs.1
    exact fun _ => ⟨⟨fun _ s => alarm_emit_idle s _ rfl, unseen_delay P _⟩,
      fun _ s => alarm_emit_idle { s with notAlcoholState := true } _ rfl⟩

theorem follows_close {downLimit upLimit threshold : Int} (hu : 0 ≤ upLimit) (ht : 0 ≤ threshold) :
    Follows P (Steadied P) (close P downLimit upLimit threshold) (Steadied P) := by
  have h := lasting_steadied (P := P)
  have hshow : ∀ MAX MIN : Int, Unseen P (.block [delay 10,
      virtualWrite P 35 fun s => [.text "Max = ", .int MAX, .text "| Min = ", .int MIN,
        .text " ||| ", .real s.milligramsPerLiter 8], delay 20]) := fun _ _ =>
    ⟨unseen_delay P _, unseen_virtualWrite P 35 _ (by decide), unseen_delay P _, trivial⟩
  refine .seq (h.unseen fun _ _ => rfl) (.seq (h.unseen hshow) (.seq (Amid.choose (follows_judge hu ht)
    (h.unseen ⟨fun _ s => alarm_emit_idle s _ rfl, unseen_delay P _⟩)) (h.unseen ?_)))
  exact ⟨fun _ _ => rfl, fun _ _ => rfl, trivial⟩

theorem follows_readIsAlcohol {downLimit upLimit threshold : Int} (hu : 0 ≤ upLimit) (ht : 0 ≤ threshold) :
    Follows P (Steadied P) (readIsAlcohol P downLimit upLimit threshold) (Steadied P) := by
  have h := lasting_steadied (P := P)
  refine .seq (h.unseen fun _ s => alarm_emit_idle { s with now := s.millis } _ rfl) (.seq (Amid.choose
    (.seq (h.unseen fun _ s => alarm_emit_idle s _ rfl) (Amid.get h.steady fun now =>
      Amid.choose follows_sample (Amid.done h.steady))) (follows_close hu ht)) (h.unseen ?_))
  exact ⟨fun _ s => alarm_emit_idle s _ rfl, trivial⟩

theorem follows_alcoholGate : Follows P (Steadied P) (alcoholGate P) (Steadied P) := by
  have h := lasting_steadied (P := P)
  have hand : ∀ p : Prop, Closed fun v => Steadied P v ∧ p := fun p =>
    closed_steadied.and (Closed.pure fun _ _ => p)
  refine Amid.choose (.seq (h.unseen (unseen_delay P _)) (.seq (Amid.get h.steady fun downLimit => ?_)
    (h.unseen ⟨unseen_delay P _, trivial⟩))) (Amid.done h.steady)
  refine Triple.get (R := fun upLimit s => Steadied P s.alarm ∧ 0 ≤ upLimit) h.steady.stable
    (fun _ _ s hs _ => ⟨hs, hs.1.1.upLimit⟩) fun upLimit => ?_
  refine Triple.get (R := fun threshold s => Steadied P s.alarm ∧ 0 ≤ upLimit ∧ 0 ≤ threshold)
    (hand _).steady.stable (fun _ _ s hs _ => ⟨hs.1, hs.2, hs.1.1.1.threshold⟩) fun threshold => ?_
  by_cases hr : 0 ≤ upLimit ∧ 0 ≤ threshold
  · exact (follows_readIsAlcohol hr.1 hr.2).pre (hand _).steady.stable fun _ hs => hs.1
  · exact Triple.absurd.pre (hand _).steady.stable fun _ hs => hr hs.2

/-- Requests to the web server change the cells only. -/
theorem follows_handleClient (h : Closed A) : Follows P A handleClient A := by
  have hdelay : ∀ ms, Follows P A (delay ms) A := fun ms => h.lasting.unseen (unseen_delay P ms)
  have hcopy : ∀ a l, Follows P A (.set (writeBytes a l)) A := by
    intro a l
    refine h.set (fun s hs => ?_) fun s => ?_
    · obtain ⟨m, hm⟩ := writeBytes_spec a l s
      rw [hm]
      exact h.row _ _ (m 106) _ hs
    · obtain ⟨m, hm⟩ := writeBytes_spec a l s
      rw [hm]
  have hcommit : Follows P A (.set State.commit) A := h.set (fun s hs => h.row _ _ _ _ hs) fun _ => rfl
  refine Amid.poll h.steady fun i => ?_
  cases i.web with
  | none => exact Amid.done h.steady
  | some w =>
    cases w with
    | root => exact Amid.done h.steady
    | caidat tenWiFi matkhau =>
      refine .seq (Amid.choose (.seq (hcopy _ _) (.seq (hdelay _) (.seq (hcopy _ _) (.seq (hcopy _ _)
        (.seq (hdelay _) (.seq hcommit (.seq (hdelay _) (Amid.done h.steady)))))))) (Amid.done h.steady)) ?_
      exact .seq (.reset h.steady.stable) (Amid.done h.steady)

theorem follows_updateToTable (h : Closed A) : Follows P A (updateToTable P) A := by
  have hset : ∀ f : State → State, (∀ s, ∃ n b c, (f s).alarm =
      { s.alarm with rowIndex := n, ram := b, cell := c }) → (∀ s, (f s).log = s.log) → Follows P A (.set f) A := by
    refine fun f hf hl => h.set (fun s hs => ?_) hl
    obtain ⟨n, b, c, hr⟩ := hf s
    rw [hr]
    exact h.row _ n b c hs
  have hadd : ∀ row : Int, Follows P A (virtualWrite P 10 fun s =>
      [.text "add", .int row, .text s.currentDateTime, .text "Tài xế say"]) A := by
    refine fun row => h.lasting.send (Amid.step h.steady fun i s hs _ => ?_)
    split
    · rw [alarm_emit s _ rfl]
      exact ⟨good_say rfl (by simp), h.say _ _ (fun _ => rfl) hs⟩
    · exact ⟨good_same rfl, hs⟩
  have hpick : ∀ row : Int, Unseen P (virtualWrite P 10 fun _ => [.text "pick", .int row]) :=
    fun row => unseen_send P fun _ => rfl
  have hdelay : ∀ ms, Follows P A (delay ms) A := fun ms => h.lasting.unseen (unseen_delay P ms)
  refine .seq (Amid.choose (hset _ (fun s => ⟨1, _, _, rfl⟩) fun _ => rfl) (Amid.done h.steady)) (.seq (hdelay _)
    (.seq (Amid.get h.steady hadd) (.seq (hdelay _) (.seq (h.lasting.unseen hpick) (.seq (hdelay _) ?_)))))
  exact .seq (hset _ (fun s => ⟨_, _, _, rfl⟩) fun _ => rfl) (.seq (hset _ (fun s => ⟨_, _, _, rfl⟩) fun _ => rfl)
    (.seq (hset _ (fun s => ⟨_, _, _, rfl⟩) fun _ => rfl) (Amid.done h.steady)))

/-- The report shows the concentration of the verdict. -/
theorem follows_reportAlcohol : Follows P (fun v => Steadied P v ∧ Told P v) (reportAlcohol P)
    fun v => Steadied P v ∧ Told P v := by
  have h : Closed fun v => Steadied P v ∧ Told P v := closed_steadied.and (Closed.told P)
  have hdelay : ∀ ms, Follows P _ (delay ms) _ := fun ms => h.lasting.unseen (unseen_delay P ms)
  have hshow : ∀ (p : Rat → Prop) (values : State → List Value),
      (∀ s, p s.milligramsPerLiter → values s = concentration s.milligramsPerLiter) →
      (∀ s, values s ≠ noAlcohol) →
      Follows P (fun v => (Steadied P v ∧ Told P v) ∧ p v.milligramsPerLiter) (virtualWrite P 3 values)
        fun v => Steadied P v ∧ Told P v := by
    intro p values hv hn
    have hp := h.and (Closed.pure fun q _ => p q)
    refine hp.lasting.send (Amid.step hp.steady fun i s hs _ => ?_)
    split
    · obtain ⟨a, ha, hm⟩ := hs.1.2
      rw [alarm_emit s _ (by simpa [Event.onAlarm] using hn s)]
      refine ⟨fun l hl => ?_, h.say _ _ (fun _ => rfl) hs.1⟩
      obtain rfl : values s = l := by simpa [Alarm.say] using hl
      exact ⟨a, ha, hm, (hv s hs.2).trans (congrArg concentration hm)⟩
    · exact ⟨good_same rfl, hs.1⟩
  have hsent : ∀ e : Event, e.onAlarm = false → Follows P _ (send P fun _ => e) _ := fun e he =>
    h.lasting.unseen (unseen_send P fun _ => he)
  refine .seq (follows_updateToTable h) (.seq (hdelay _) (.seq (h.lasting.unseen
    (unseen_virtualWrite P 1 _ (by decide))) (.seq (hdelay _) (.seq ?_ (.seq (hdelay _) (.seq (hsent _ rfl)
    (.seq (hdelay _) (.seq (hsent _ rfl) (.seq (hdelay _) (Amid.done h.steady))))))))))
  refine Amid.ite h.steady (fun _ s hs hc => ⟨hs, of_decide_eq_true hc⟩)
    (fun _ s hs hc => ⟨hs, of_decide_eq_false hc⟩) (hshow (· ≤ 2) _ (fun s hq => ?_) fun _ => by simp [noAlcohol])
    (hshow (¬ · ≤ 2) _ (fun s hq => ?_) fun _ => by simp [noAlcohol])
  · rw [concentration, if_pos hq]
  · rw [concentration, if_neg hq]

theorem follows_answerIsAlcohol : Follows P (Steadied P) (answerIsAlcohol P) (Steadied P) := by
  have hdone : Follows P (Steadied P) .skip (Steadied P) := Amid.done closed_steadied.steady
  have hup : Closed fun v => Steadied P v ∧ v.isAlcoholState = true :=
    closed_steadied.and (Closed.pure fun _ b => b = true)
  have htold : Closed fun v => Steadied P v ∧ Told P v := closed_steadied.and (Closed.told P)
  have hdown : Follows P (fun v => Steadied P v ∧ v.isAlcoholState = true)
      (.set fun s => { s with isAlcoholState := false }) fun v => Steadied P v ∧ Told P v := by
    refine hup.set (fun s hs => ⟨⟨⟨⟨hs.1.1.1.upLimit, hs.1.1.1.threshold⟩, fun hf => ?_⟩, hs.1.2⟩,
      hs.1.1.2 hs.2⟩) fun _ => rfl
    exact absurd hf (by simp [State.alarm])
  have hsay : Follows P (fun v => Steadied P v ∧ v.isAlcoholState = true)
      (broadcastTXT .detectAlcohol (some .isAlcohol)) fun v => Steadied P v ∧ v.isAlcoholState = true :=
    hup.emit (fun _ => rfl) (fun _ _ => rfl) (by simp)
  have hend : Follows P (fun v => Steadied P v ∧ Told P v) (.block [delay 2000])
      fun v => Steadied P v ∧ Told P v := htold.lasting.unseen ⟨unseen_delay P _, trivial⟩
  refine Amid.ite (T := fun v => Steadied P v ∧ v.isAlcoholState = true) closed_steadied.steady
    (fun _ s hs hc => ⟨hs, hc⟩) (fun _ _ hs _ => hs) (.seq hsay (.seq (hup.lasting.unseen fun _ _ => rfl)
    (.seq (hup.lasting.unseen fun _ _ => rfl) (.seq hdown (.seq (Amid.choose follows_reportAlcohol
    (Amid.done htold.steady)) (hend.post fun _ hs => hs.1)))))) hdone

theorem follows_sketch : Triple ((spec P).amid Beside State.alarm) (fun s => Steadied P s.alarm) (device P).boot
    fun _ => False :=
  .seq (lasting_steadied.setup lasting_steadied (closed_steadied.set (fun _ hs => closed_steadied.row _ _ _ _ hs)
    fun _ => rfl) (closed_steadied.set (fun _ hs => closed_steadied.row _ _ _ _ hs) fun _ => rfl))
    (.forever (fun _ _ => trivial) (lasting_steadied.loop (follows_handleClient closed_steadied)
      follows_answerIsAlcohol follows_alcoholGate))

end Alarm

/-- No sample is taken while a verdict waits for its report. -/
def Unsampled (s t : State) : Prop := ∀ e ∈ s.during t, e.looks = true → s.isAlcoholState = false

/-- The report shows the concentration of the latest verdict. -/
def Attributed (P : Platform) (s t : State) : Prop :=
  ∀ e ∈ s.during t, e.reports = true → ∃ a ∈ lastAlcohol s.log,
    s.milligramsPerLiter = P.milligrams a.MAX ∧ e = .virtualWrite 3 (concentration (P.milligrams a.MAX))

instance (s t : State) : Decidable (Unsampled s t) := inferInstanceAs (Decidable (∀ e ∈ _, _ → _))
instance (P : Platform) (s t : State) : Decidable (Attributed P s t) :=
  inferInstanceAs (Decidable (∀ e ∈ _, _ → ∃ a ∈ _, _ ∧ _))

theorem alarm_hist {s t : State} {e : Event} (h : t.log = e :: s.log) (he : e.onAlarm = true) :
    t.alarm.hist = e :: s.alarm.hist := by
  show List.filter Event.onAlarm t.log = _
  rw [h, List.filter_cons_of_pos he]
  rfl

/-- A step that logs nothing of this kind is no report. -/
theorem attributed_of_good {P : Platform} {s t : State} (hg : Grew s t)
    (h : (Alarm.spec P).good s.alarm t.alarm) : Attributed P s t := by
  intro e he hr
  have hl := log_of_during hg he
  obtain ⟨values, rfl⟩ : ∃ values, e = .virtualWrite 3 values := by
    unfold Event.reports at hr
    split at hr
    · exact ⟨_, rfl⟩
    · simp at hr
  obtain ⟨a, ha, hm, hv⟩ := h values (alarm_hist hl hr)
  exact ⟨a, (lastAlcohol_filter s.log).symm.trans ha, hm, by rw [hv]⟩

theorem steadied_start (P : Platform) (flash : Nat → UInt8) : Alarm.Steadied P (powerOn flash).alarm :=
  ⟨⟨⟨le_rfl, le_rfl⟩, fun h => absurd h (by simp [State.alarm, powerOn])⟩, fun h => absurd h (lt_irrefl _)⟩

theorem steadied_restart (P : Platform) (s : State) : Alarm.Steadied P (restart s).alarm :=
  ⟨⟨⟨le_rfl, le_rfl⟩, fun h => absurd h (by simp [State.alarm, restart, powerOn])⟩,
    fun h => absurd h (lt_irrefl _)⟩

/-- As long as no sample is taken between a verdict of alcohol and its report, each report shows the
concentration of its verdict. -/
theorem concentration_reported (P : Platform) (flash : Nat → UInt8) (xs : Run)
    (hx : (device P).Along (fun _ c d => Unsampled c.state d.state) xs ((device P).start (powerOn flash))) :
    (device P).Along (fun _ c d => Attributed P c.state d.state) xs ((device P).start (powerOn flash)) := by
  have hr : ∀ s, ((Alarm.spec P).amid Alarm.Beside State.alarm).inv s →
      Alarm.Steadied P ((device P).restart s).alarm := fun s _ => steadied_restart P s
  have h0 : Machine.Always ((Alarm.spec P).amid Alarm.Beside State.alarm) ((device P).start (powerOn flash)) :=
    Machine.always_start Alarm.follows_sketch (steadied_start P flash)
  have hg := along_grew P flash xs
  refine ((Machine.along_always Alarm.follows_sketch hr xs _ h0 ((hx.and hg).imp ?_)).and hg).imp ?_
  · intro x c hc
    cases x with
    | run i =>
      intro l t hst level hl
      have ht : ((device P).step (.run i) c).state = t := by simp [Machine.step, hst]
      rw [ht] at hc
      exact hc.1 (.camera level) (by rw [during_of_log (log_of_filter hc.2 hl)]; simp) rfl
    | outside r => exact alarm_react r c.state
    | reset => trivial
  · rintro x c ⟨⟨-, hd, -⟩, hg⟩
    refine attributed_of_good hg ?_
    rcases hd with hd | ⟨r, -, hd, -⟩ | ⟨i, -, -, hd⟩
    · rw [hd]
      exact Alarm.good_say (e := .boot) rfl (by simp)
    · rw [hd]
      rcases alarm_react r c.state with hr | hr
      · exact Alarm.good_same (congrArg Alarm.hist hr)
      · exact Alarm.good_same (v := c.state.alarm) (w := (react r c.state).alarm) (by rw [hr])
    · exact hd

/-- The platform on which the concentration is `MAX`. -/
def rated : Platform := { bench with milligrams := fun M => M }

set_option maxRecDepth 10000 in
theorem concentration_reported_drunk :
    (after rated (flashOf 5) (tested drunk)).state.isAlcoholState = true ∧
    (device rated).Along (fun _ c d => Attributed rated c.state d.state)
      (tested drunk ++ pause 1000 ++ idle 80) ((device rated).start (powerOn (flashOf 5))) :=
  ⟨by decide +kernel, concentration_reported rated (flashOf 5) _ (by decide +kernel)⟩

/-- The next driver presses and blows before the report. -/
def hurried : Run :=
  tested drunk ++ press ++ rounds { adc := 1 } 140 ++ pause 1000 ++ rounds { adc := 1 } 80

set_option maxRecDepth 10000 in
/-- The report shows the concentration of the next test. -/
theorem concentration_can_be_late : ¬ ∀ (P : Platform) (flash : Nat → UInt8) (xs : Run),
    (device P).Along (fun _ c d => Attributed P c.state d.state) xs ((device P).start (powerOn flash)) := by
  intro h
  have h := h rated (flashOf 5) hurried
  revert h
  decide +kernel

end Center
