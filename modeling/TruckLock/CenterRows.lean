import TruckLock.CenterAlarm
import TruckLock.CenterLog
import TruckLock.Cycles
import TruckLock.History

/-!
# The rows of the alarm table

The row counter is kept in RAM and in a cell, and checked on one side only.
Counted from a cell that is not 0, the alarms take successive rows, over resets
that do not interrupt an alarm.
-/
namespace Center

open Firmware Spec History Cycles

namespace Event

/-- The command that answers a verdict of alcohol. -/
def alarms : Event → Bool
  | .broadcast _ (some .isAlcohol) => true
  | _ => false

/-- The report on V3 ends the handling of an alarm, and so does a reset. -/
def closes : Event → Bool
  | .boot => true
  | .virtualWrite 3 values => values ≠ noAlcohol
  | _ => false

/-- The row in which an alarm is entered. -/
def row? : Event → Option Int
  | .virtualWrite 10 (.text "add" :: .int row :: _) => some row
  | _ => none

def clears : Event → Bool
  | .app w => w.clears
  | _ => false

/-- The events that are to wait until an alarm has been handled. -/
def breaks (e : Event) : Bool := e = .boot || e.clears

theorem onAlarm_of_alarms {e : Event} (h : e.alarms = true) : e.onAlarm = true := by
  unfold alarms at h
  split at h
  · rfl
  · simp at h

theorem onAlarm_of_closes {e : Event} (h : e.closes = true) : e.onAlarm = true := by
  unfold closes at h
  split at h
  · rfl
  · exact h
  · simp at h

theorem onAlarm_of_row {e : Event} (h : e.row?.isSome = true) : e.onAlarm = true := by
  unfold row? at h
  split at h
  · rfl
  · simp at h

theorem onAlarm_of_clears {e : Event} (h : e.clears = true) : e.onAlarm = true := by
  unfold clears at h
  split at h
  · exact h
  · simp at h

end Event

/-- An alarm is being handled: its command has been sent, and the report on V3 is still to come. -/
def handling : List Event → Bool
  | [] => false
  | e :: l => e.alarms || (!e.closes && handling l)

/-- The rows of the alarms since the table has been cleared, newest first. -/
def rows : List Event → List Int
  | [] => []
  | e :: l => if e.clears then [] else e.row?.toList ++ rows l

theorem handling_filter (l : List Event) : handling (l.filter Event.onAlarm) = handling l := by
  refine summary_filter (fun e l l' h => by rw [handling, h, handling]) (fun e l he => ?_) l
  have ha : e.alarms = false := by
    by_contra hn
    exact absurd (Event.onAlarm_of_alarms (by simpa using hn)) (by simp [he])
  have hc : e.closes = false := by
    by_contra hn
    exact absurd (Event.onAlarm_of_closes (by simpa using hn)) (by simp [he])
  rw [handling, ha, hc]
  rfl

theorem rows_filter (l : List Event) : rows (l.filter Event.onAlarm) = rows l := by
  refine summary_filter (fun e l l' h => by rw [rows, h, rows]) (fun e l he => ?_) l
  have hr : e.row? = none := by
    by_contra hn
    exact absurd (Event.onAlarm_of_row (Option.isSome_iff_ne_none.2 hn)) (by simp [he])
  have hc : e.clears = false := by
    by_contra hn
    exact absurd (Event.onAlarm_of_clears (by simpa using hn)) (by simp [he])
  rw [rows, hr, hc]
  rfl

/-- No reset has interrupted the handling of an alarm. -/
def Intact (l : List Event) : Prop := Always (fun e l => e = .boot → handling l = false) l

/-- The texts of a form leave cell 106 alone. -/
def Env.fits (i : Env) : Bool :=
  match i.web with
  | some (.caidat tenWiFi matkhau) => tenWiFi.length ≤ 106 && matkhau.length ≤ 74
  | _ => true

namespace Rows

/-- What the flash says of the table. -/
structure Stored (v : Alarm) : Prop where
  ram : v.ram = v.cell
  cell : v.cell ≠ 0
  row : ∀ r ∈ (rows v.hist).head?, v.cell.toNat = r + 1

/-- Between two alarms. -/
structure Filed (v : Alarm) : Prop extends Stored v where
  cyclic : Cyclic 20 (rows v.hist)
  rowIndex : 1 ≤ v.rowIndex
  next : ∀ r ∈ (rows v.hist).head?, v.rowIndex = r + 1

/-- While `setup` runs: the counter has not been loaded yet. -/
structure Loading (v : Alarm) : Prop extends Stored v where
  cyclic : Cyclic 20 (rows v.hist)

/-- The counter has been checked. -/
structure Ready (v : Alarm) : Prop where
  handled : handling v.hist = true
  ram : v.ram = v.cell
  cyclic : Cyclic 20 (rows v.hist)
  rowIndex : 1 ≤ v.rowIndex ∧ v.rowIndex ≤ 20
  next : ∀ r ∈ (rows v.hist).head?, v.rowIndex = succ 20 r

/-- The alarm is in the table. -/
structure Added (v : Alarm) : Prop where
  handled : handling v.hist = true
  ram : v.ram = v.cell
  cyclic : Cyclic 20 (rows v.hist)
  row : (rows v.hist).head? = some v.rowIndex

def spec : Spec Env Alarm where
  ok i v w := (∀ e, w.hist = e :: v.hist → e.breaks = true → handling v.hist = false) ∧
    (handling v.hist = true → i.link = true) ∧ i.fits = true
  good _ _ := True
  good_refl _ := trivial
  inv v := Intact v.hist → Cyclic 20 (rows v.hist) ∧ (handling v.hist = false → Stored v)
  top _ := True
  fin _ := True

/-- The assertion, as long as no reset has interrupted an alarm. -/
def Unless (A : Alarm → Prop) (v : Alarm) : Prop := Intact v.hist → A v

abbrev Turns (A : Alarm → Prop) (c : Sketch) (B : Alarm → Prop) : Prop :=
  spec.Amid Alarm.Beside State.alarm (Unless A) c (Unless B)

theorem steady_of {A : Alarm → Prop} (hi : ∀ v, A v → Cyclic 20 (rows v.hist) ∧ (handling v.hist = false → Stored v))
    (hp : ∀ v, A v → A { v with MAX := 0 }) : spec.Steady Alarm.Beside (Unless A) where
  inv v hv hl := hi v (hv hl)
  rel := by
    rintro v _ hv (rfl | rfl)
    · exact hv
    · exact fun hl => hp v (hv hl)

/-- The same while an alarm is handled, when nothing need be stored. -/
theorem steady_handling {A : Alarm → Prop} (hi : ∀ v, A v → handling v.hist = true ∧ Cyclic 20 (rows v.hist))
    (hp : ∀ v, A v → A { v with MAX := 0 }) : spec.Steady Alarm.Beside (Unless A) := by
  refine steady_of (fun v h => ?_) hp
  obtain ⟨hh, hc⟩ := hi v h
  refine ⟨hc, fun hf => ?_⟩
  rw [hh] at hf
  exact Bool.noConfusion hf

theorem steady_filed : spec.Steady Alarm.Beside (Unless Filed) :=
  steady_of (fun _ h => ⟨h.cyclic, fun _ => h.toStored⟩)
    fun _ h => ⟨⟨h.ram, h.cell, h.row⟩, h.cyclic, h.rowIndex, h.next⟩

theorem steady_loading : spec.Steady Alarm.Beside (Unless Loading) :=
  steady_of (fun _ h => ⟨h.cyclic, fun _ => h.toStored⟩) fun _ h => ⟨⟨h.ram, h.cell, h.row⟩, h.cyclic⟩

theorem steady_ready : spec.Steady Alarm.Beside (Unless Ready) :=
  steady_handling (fun _ h => ⟨h.handled, h.cyclic⟩)
    fun _ h => ⟨h.handled, h.ram, h.cyclic, h.rowIndex, h.next⟩

theorem steady_added : spec.Steady Alarm.Beside (Unless Added) :=
  steady_handling (fun _ h => ⟨h.handled, h.cyclic⟩)
    fun _ h => ⟨h.handled, h.ram, h.cyclic, h.row⟩

section

variable {A B : Alarm → Prop} {P : Platform}

/-- A statement that does not log. -/
theorem turns_set (hA : spec.Steady Alarm.Beside (Unless A)) {f : State → State}
    (hf : ∀ s, A s.alarm → B (f s).alarm) (hl : ∀ s, (f s).log = s.log) : Turns A (.set f) B := by
  refine Amid.step hA fun _ s hs _ => ⟨trivial, fun hi => hf s (hs ?_)⟩
  have hh : (f s).alarm.hist = s.alarm.hist := congrArg (List.filter Event.onAlarm) (hl s)
  exact hh ▸ hi

theorem turns_emit (hA : spec.Steady Alarm.Beside (Unless A)) {e : State → Event}
    (he : ∀ s, (e s).onAlarm = true)
    (h : ∀ i (s : State), A s.alarm → spec.ok i s.alarm (s.alarm.say (e s)) → B (s.alarm.say (e s))) :
    Turns A (.set fun s => s.emit (e s)) B := by
  refine Amid.step hA fun i s hs hok => ⟨trivial, ?_⟩
  rw [alarm_emit s _ (he s)] at hok ⊢
  exact fun hi => h i s (hs hi.2) hok

/-- The assertion once the table has been cleared, which is not while an alarm is handled. -/
theorem steady_cleared (hA : spec.Steady Alarm.Beside (Unless A)) :
    spec.Steady Alarm.Beside (Unless fun v => A v ∧ rows v.hist = [] ∧ handling v.hist = false) where
  inv v hv := hA.inv v fun hi => (hv hi).1
  rel := by
    rintro v _ hv (rfl | rfl)
    · exact hv
    · exact fun hi => ⟨hA.rel v _ (fun hi => (hv hi).1) (.inr rfl) hi, (hv hi).2⟩

theorem rows_clear {w : AppWrite} (h : w.clears = true) (l : List Event) : rows (.app w :: l) = [] := by
  rw [rows]
  exact if_pos h

theorem handling_app (w : AppWrite) (l : List Event) : handling (.app w :: l) = handling l := by
  simp [handling, Event.alarms, Event.closes]

theorem lasting_of (hA : spec.Steady Alarm.Beside (Unless A))
    (hw : ∀ v w, A v → Alarm.Written v w → A w)
    (happ : ∀ v w, A v → AppWrite.clears w = true → handling v.hist = false → A (v.say (.app w)))
    (hrow : ∀ v, A v → rows v.hist = [] → handling v.hist = false → A { v with rowIndex := 1 }) :
    Lasting P spec (Unless A) where
  steady := hA
  written v w hv h := by
    refine ⟨trivial, fun hi => hw v w (hv ?_) h⟩
    cases h <;> exact hi
  clear param := by
    refine amid_clear P hA (steady_cleared hA) (fun hp => turns_emit hA (fun _ => ?_) fun i s hs hok => ?_)
      (turns_set (steady_cleared hA) (fun s hs => hrow _ hs.1 hs.2.1 hs.2.2) fun _ => rfl)
    · simp [Event.onAlarm, AppWrite.clears, hp]
    · have hc : AppWrite.clears ⟨.V11, param⟩ = true := by simp [AppWrite.clears, hp]
      have hn : handling s.alarm.hist = false := hok.1 _ rfl (Bool.or_eq_true_iff.2 (.inr hc))
      exact ⟨happ _ _ hs hc hn, rows_clear hc _, (handling_app _ _).trans hn⟩

theorem Stored.written {v w : Alarm} (h : Stored v) (hw : Alarm.Written v w) : Stored w := by
  cases hw with
  | commit => exact ⟨rfl, h.ram ▸ h.cell, h.ram ▸ h.row⟩
  | _ => exact ⟨h.ram, h.cell, h.row⟩

theorem Stored.clear {v : Alarm} (h : Stored v) {w : AppWrite} (hc : w.clears = true) :
    Stored (v.say (.app w)) :=
  ⟨h.ram, h.cell, by simp [Alarm.say, rows_clear hc]⟩

theorem lasting_filed : Lasting P spec (Unless Filed) := by
  refine lasting_of steady_filed (fun v w h hw => ?_) (fun v w h hc _ => ?_) fun v h hn _ => ?_
  · have hs := h.toStored.written hw
    cases hw <;> exact ⟨hs, h.cyclic, h.rowIndex, h.next⟩
  · refine ⟨h.toStored.clear hc, ?_, h.rowIndex, ?_⟩
    · simp [Alarm.say, rows_clear hc, cyclic_nil]
    · simp [Alarm.say, rows_clear hc]
  · exact ⟨⟨h.ram, h.cell, h.row⟩, h.cyclic, le_rfl, by simp [hn]⟩

theorem lasting_loading : Lasting P spec (Unless Loading) := by
  refine lasting_of steady_loading (fun v w h hw => ?_) (fun v w h hc _ => ?_) fun v h hn _ => ?_
  · have hs := h.toStored.written hw
    cases hw <;> exact ⟨hs, h.cyclic⟩
  · exact ⟨h.toStored.clear hc, by simp [Alarm.say, rows_clear hc, cyclic_nil]⟩
  · exact ⟨⟨h.ram, h.cell, h.row⟩, h.cyclic⟩

/-- While an alarm is handled the app does not clear the table. -/
theorem lasting_handled (hA : spec.Steady Alarm.Beside (Unless A)) (hh : ∀ v, A v → handling v.hist = true)
    (hw : ∀ v w, A v → Alarm.Written v w → A w) : Lasting P spec (Unless A) :=
  lasting_of hA hw (fun v _ h _ hn => absurd ((hh v h).symm.trans hn) (by simp))
    fun v h _ hn => absurd ((hh v h).symm.trans hn) (by simp)

theorem Ready.written {v w : Alarm} (h : Ready v) (hw : Alarm.Written v w) : Ready w ∧ w.rowIndex = v.rowIndex := by
  cases hw with
  | commit => exact ⟨⟨h.handled, rfl, h.cyclic, h.rowIndex, h.next⟩, rfl⟩
  | _ => exact ⟨⟨h.handled, h.ram, h.cyclic, h.rowIndex, h.next⟩, rfl⟩

theorem Added.written {v w : Alarm} (h : Added v) (hw : Alarm.Written v w) : Added w := by
  cases hw with
  | commit => exact ⟨h.handled, rfl, h.cyclic, h.row⟩
  | _ => exact ⟨h.handled, h.ram, h.cyclic, h.row⟩

theorem lasting_ready : Lasting P spec (Unless Ready) :=
  lasting_handled steady_ready (fun _ h => h.handled) fun _ _ h hw => (h.written hw).1

theorem lasting_added : Lasting P spec (Unless Added) :=
  lasting_handled steady_added (fun _ h => h.handled) fun _ _ h hw => h.written hw

/-- The row of the next alarm. -/
theorem Filed.ready {v : Alarm} (h : Filed v) (hh : handling v.hist = true) :
    (21 ≤ v.rowIndex → Ready { v with rowIndex := 1 }) ∧ (¬ 21 ≤ v.rowIndex → Ready v) := by
  have hsucc : ∀ r ∈ (rows v.hist).head?, succ 20 r = if 20 ≤ r then 1 else r + 1 := fun r hr =>
    succ_eq (h.cyclic.range r (List.mem_of_mem_head? hr))
  constructor
  · refine fun hn => ⟨hh, h.ram, h.cyclic, ⟨le_rfl, Int.le.intro 19 rfl⟩, fun r hr => ?_⟩
    have hrow := h.next r hr
    rw [hsucc r hr, if_pos (by omega)]
  · refine fun hn => ⟨hh, h.ram, h.cyclic, ⟨h.rowIndex, by omega⟩, fun r hr => ?_⟩
    have hrow := h.next r hr
    rw [hsucc r hr, if_neg (by omega), hrow]

/-- The command has been sent. -/
abbrev Alarmed (v : Alarm) : Prop := Filed v ∧ handling v.hist = true

theorem steady_alarmed : spec.Steady Alarm.Beside (Unless Alarmed) :=
  steady_of (fun _ h => ⟨h.1.cyclic, fun _ => h.1.toStored⟩)
    fun _ h => ⟨⟨⟨h.1.ram, h.1.cell, h.1.row⟩, h.1.cyclic, h.1.rowIndex, h.1.next⟩, h.2⟩

theorem turns_check : Turns Alarmed
    (.when (fun _ s => 21 ≤ s.rowIndex) (.set fun s => { s with rowIndex := 1 })) Ready := by
  have hhigh : spec.Steady Alarm.Beside (Unless fun v => Alarmed v ∧ 21 ≤ v.rowIndex) :=
    steady_of (fun _ h => ⟨h.1.1.cyclic, fun _ => h.1.1.toStored⟩)
      fun _ h => ⟨⟨⟨⟨h.1.1.ram, h.1.1.cell, h.1.1.row⟩, h.1.1.cyclic, h.1.1.rowIndex, h.1.1.next⟩, h.1.2⟩, h.2⟩
  refine Amid.when (T := Unless fun v => Alarmed v ∧ 21 ≤ v.rowIndex) steady_alarmed
    (fun _ s hs hc hi => ⟨hs hi, of_decide_eq_true hc⟩)
    (fun _ s hs hc hi => ((hs hi).1.ready (hs hi).2).2 (of_decide_eq_false hc)) steady_ready
    (turns_set hhigh (fun s hs => ?_) fun _ => rfl)
  exact (hs.1.1.ready hs.1.2).1 hs.2

/-- The app's table is told the row; the connection is up. -/
theorem turns_add (row : Int) : Turns (fun v => Ready v ∧ v.rowIndex = row)
    (virtualWrite P 10 fun s => [.text "add", .int row, .text s.currentDateTime, .text "Tài xế say"]) Added := by
  have hst : spec.Steady Alarm.Beside (Unless fun v => Ready v ∧ v.rowIndex = row) :=
    steady_handling (fun _ h => ⟨h.1.handled, h.1.cyclic⟩)
      fun _ h => ⟨⟨h.1.handled, h.1.ram, h.1.cyclic, h.1.rowIndex, h.1.next⟩, h.2⟩
  have hlast : Lasting P spec (Unless fun v => Ready v ∧ v.rowIndex = row) :=
    lasting_handled hst (fun _ h => h.1.handled) fun _ _ h hw =>
      ⟨(h.1.written hw).1, (h.1.written hw).2.trans h.2⟩
  refine hlast.send (Amid.step hst fun i s hs hok => ⟨trivial, ?_⟩)
  cases hl : i.link with
  | true =>
    simp only [if_true]
    rw [alarm_emit s _ rfl]
    intro hi
    obtain ⟨h, rfl⟩ := hs hi.2
    exact ⟨h.handled, h.ram, h.cyclic.cons h.rowIndex h.next, rfl⟩
  | false =>
    intro hi
    have h := (hs hi).1
    have hlink := hok.2.1 h.handled
    rw [hl] at hlink
    exact absurd hlink (by simp)

/-- The counter has moved on. -/
structure Counted (v : Alarm) : Prop where
  handled : handling v.hist = true
  ram : v.ram = v.cell
  cyclic : Cyclic 20 (rows v.hist)
  row : ∃ r, (rows v.hist).head? = some r ∧ v.rowIndex = r + 1

/-- The cell of the image holds the counter. -/
structure Copied (v : Alarm) : Prop where
  handled : handling v.hist = true
  cyclic : Cyclic 20 (rows v.hist)
  row : ∃ r, (rows v.hist).head? = some r ∧ v.rowIndex = r + 1 ∧ v.ram.toNat = r + 1

theorem steady_counted : spec.Steady Alarm.Beside (Unless Counted) :=
  steady_handling (fun _ h => ⟨h.handled, h.cyclic⟩)
    fun _ h => ⟨h.handled, h.ram, h.cyclic, h.row⟩

theorem steady_copied : spec.Steady Alarm.Beside (Unless Copied) :=
  steady_handling (fun _ h => ⟨h.handled, h.cyclic⟩)
    fun _ h => ⟨h.handled, h.cyclic, h.row⟩

theorem Counted.copied {v : Alarm} (h : Counted v) : Copied { v with ram := byte v.rowIndex } := by
  obtain ⟨r, hr, hn⟩ := h.row
  have hrange := h.cyclic.range r (List.mem_of_mem_head? hr)
  refine ⟨h.handled, h.cyclic, r, hr, hn, ?_⟩
  rw [hn, byte, UInt8.toNat_ofNat']
  omega

theorem Copied.filed {v : Alarm} (h : Copied v) : Filed { v with cell := v.ram } := by
  obtain ⟨r, hr, hn, hram⟩ := h.row
  have hrange := h.cyclic.range r (List.mem_of_mem_head? hr)
  have hhead : ∀ r' ∈ (rows v.hist).head?, r' = r := by simp [hr]
  refine ⟨⟨rfl, fun hc => ?_, fun r' hr' => ?_⟩, h.cyclic, ?_, fun r' hr' => ?_⟩
  · rw [show v.ram = 0 from hc] at hram
    simp at hram
    omega
  · rw [hhead r' hr']
    exact hram
  · show 1 ≤ v.rowIndex
    omega
  · rw [hhead r' hr']
    exact hn

/-- An alarm takes the next row. -/
theorem turns_updateToTable : Turns Alarmed (updateToTable P) Filed := by
  have hget : Turns Ready (.get (fun _ s => s.rowIndex) fun row => virtualWrite P 10 fun s =>
      [.text "add", .int row, .text s.currentDateTime, .text "Tài xế say"]) Added :=
    Triple.get (R := fun row s => Unless (fun v => Ready v ∧ v.rowIndex = row) s.alarm) steady_ready.stable
      (fun _ _ _ hs _ hi => ⟨hs hi, rfl⟩) fun row => turns_add row
  have hpick : Unseen P (.get (fun _ s => s.rowIndex) fun row =>
      virtualWrite P 10 fun _ => [.text "pick", .int row]) := fun row => unseen_send P fun _ => rfl
  have hstep : Turns Added (.set fun s => { s with rowIndex := s.rowIndex + 1 }) Counted :=
    turns_set steady_added (fun s h => ⟨h.handled, h.ram, h.cyclic, _, h.row, rfl⟩) fun _ => rfl
  have hwrite : Turns Counted (.set fun s => s.write 106 (byte s.rowIndex)) Copied :=
    turns_set steady_counted (fun s h => h.copied) fun _ => rfl
  have hcommit : Turns Copied (.set State.commit) Filed :=
    turns_set steady_copied (fun s h => h.filed) fun _ => rfl
  exact .seq turns_check (.seq (lasting_ready.unseen (unseen_delay P _)) (.seq hget (.seq
    (lasting_added.unseen (unseen_delay P _)) (.seq (lasting_added.unseen hpick) (.seq
    (lasting_added.unseen (unseen_delay P _)) (.seq hstep (.seq hwrite (.seq hcommit (Amid.done steady_filed)))))))))

/-- A step that has nothing to do with the table. -/
structure Aside (v w : Alarm) : Prop where
  rowIndex : w.rowIndex = v.rowIndex
  ram : w.ram = v.ram
  cell : w.cell = v.cell
  hist : w.hist = v.hist ∨ ∃ e, w.hist = e :: v.hist ∧ e.row? = none ∧ e.clears = false

/-- The readings and the request are apart from the table. -/
theorem Aside.put (v : Alarm) (m : Int) (q : Rat) (b : Bool) :
    Aside v { v with MAX := m, milligramsPerLiter := q, isAlcoholState := b } :=
  ⟨rfl, rfl, rfl, .inl rfl⟩

theorem Aside.rows {v w : Alarm} (h : Aside v w) : Center.rows w.hist = Center.rows v.hist := by
  rcases h.hist with hh | ⟨e, hh, hr, hc⟩
  · rw [hh]
  · rw [hh, Center.rows, hr, hc]
    rfl

theorem Aside.intact {v w : Alarm} (h : Aside v w) (hi : Intact w.hist) : Intact v.hist := by
  rcases h.hist with hh | ⟨e, hh, -, -⟩
  · rwa [hh] at hi
  · rw [hh] at hi
    exact hi.2

theorem Filed.aside {v w : Alarm} (h : Filed v) (ha : Aside v w) : Filed w := by
  refine ⟨⟨?_, ?_, ?_⟩, ?_, ?_, ?_⟩
  · rw [ha.ram, ha.cell, h.ram]
  · rw [ha.cell]
    exact h.cell
  · rw [ha.rows, ha.cell]
    exact h.row
  · rw [ha.rows]
    exact h.cyclic
  · rw [ha.rowIndex]
    exact h.rowIndex
  · rw [ha.rows, ha.rowIndex]
    exact h.next

abbrev Away (P : Platform) (c : Sketch) : Prop := Made (fun s t => Aside s.alarm t.alarm) (· = blynkRun P) c

theorem away_unseen {c : Sketch} (h : Unseen P c) : Away P c :=
  h.mono fun s t hst => by rw [hst]; exact .put _ _ _ _

theorem away_set {f : State → State} (hf : ∀ s, (f s).alarm = { s.alarm with
    MAX := (f s).MAX, milligramsPerLiter := (f s).milligramsPerLiter, isAlcoholState := (f s).isAlcoholState }) :
    Away P (.set f) := by
  intro _ s
  show Aside s.alarm (f s).alarm
  rw [hf s]
  exact .put _ _ _ _

/-- A statement that logs an event of an alarm, apart from the table. -/
theorem aside_emit {s t : State} {e : Event} (hs : Aside s.alarm t.alarm) (hl : t.log = s.log)
    (hr : e.row? = none) (hc : e.clears = false) : Aside s.alarm (t.emit e).alarm := by
  refine ⟨hs.rowIndex, hs.ram, hs.cell, ?_⟩
  have hh : t.alarm.hist = s.alarm.hist := congrArg (List.filter Event.onAlarm) hl
  cases he : e.onAlarm with
  | true =>
    refine .inr ⟨e, ?_, hr, hc⟩
    rw [alarm_emit t e he, ← hh]
    rfl
  | false =>
    rw [alarm_emit_idle t e he]
    exact .inl hh

theorem away_say {f : State → State} {e : State → Event}
    (h : ∀ s, Aside s.alarm (f s).alarm ∧ (f s).log = s.log ∧ (e s).row? = none ∧ (e s).clears = false) :
    Away P (.set fun s => (f s).emit (e s)) := by
  intro _ s
  obtain ⟨ha, hl, hr, hc⟩ := h s
  exact aside_emit ha hl hr hc

theorem turns_away {c : Sketch} (hc : Away P c) : Turns Filed c Filed := by
  have hst : Stable (spec.amid Alarm.Beside State.alarm) fun s => Unless Filed s.alarm := steady_filed.stable
  have hkept : ∀ (i : Env) (f : Env → State → State) (s : State), Aside s.alarm (f i s).alarm →
      Unless Filed s.alarm → Unless Filed (f i s).alarm := fun i f s ha hs hi => (hs (ha.intact hi)).aside ha
  refine Made.triple (K := (· = blynkRun P)) hst (fun i f _ s _ ha hs => ⟨trivial, hkept i f s ha hs⟩)
    (fun _ hk => ?_) hc
  rw [hk]
  exact lasting_filed.app

theorem away_sample : Away P (sample P) :=
  ⟨away_set fun _ => rfl,
    fun i s => aside_emit (t := { s with current := i.adc }) (.put _ _ _ _) rfl rfl rfl,
    fun _ => ⟨⟨away_set fun _ => rfl, trivial⟩, ⟨away_set fun _ => rfl, trivial⟩, trivial⟩,
    fun i s => aside_emit (t := { s with camLevel := i.camRX }) (.put _ _ _ _) rfl rfl rfl,
    ⟨away_set fun _ => rfl, trivial⟩, away_set fun _ => rfl, trivial⟩

theorem away_alcoholGate : Away P (alcoholGate P) := by
  have hdelay : ∀ ms, Away P (delay ms) := fun ms => away_unseen (unseen_delay P ms)
  have hjudge : ∀ d u t : Int, Away P (judge d u t) := fun d u t _ =>
    ⟨away_say fun _ => ⟨.put _ _ _ _, rfl, rfl, rfl⟩, fun _ =>
      ⟨⟨away_say fun _ => ⟨.put _ _ _ _, rfl, rfl, rfl⟩, hdelay _⟩,
        away_say fun _ => ⟨.put _ _ _ _, rfl, rfl, rfl⟩⟩⟩
  have hshow : ∀ values, Away P (virtualWrite P 35 values) := fun values =>
    away_unseen (unseen_virtualWrite P 35 values (by decide))
  have hclose : ∀ d u t : Int, Away P (close P d u t) := fun d u t =>
    ⟨away_set fun _ => rfl, fun _ _ => ⟨hdelay _, hshow _, hdelay _, trivial⟩,
      ⟨hjudge d u t, away_say fun _ => ⟨.put _ _ _ _, rfl, rfl, rfl⟩, hdelay _⟩,
      away_set fun _ => rfl, away_set fun _ => rfl, trivial⟩
  have hread : ∀ d u t : Int, Away P (readIsAlcohol P d u t) := fun d u t =>
    ⟨away_say fun _ => ⟨.put _ _ _ _, rfl, rfl, rfl⟩,
      ⟨⟨away_say fun _ => ⟨.put _ _ _ _, rfl, rfl, rfl⟩, fun _ => ⟨away_sample, trivial⟩⟩,
        hclose d u t⟩, away_say fun _ => ⟨.put _ _ _ _, rfl, rfl, rfl⟩, trivial⟩
  exact ⟨⟨hdelay _, fun d u t => hread d u t, hdelay _, trivial⟩, trivial⟩

theorem turns_reportAlcohol : Turns Alarmed (reportAlcohol P) Filed := by
  have hdelay : ∀ ms, Away P (delay ms) := fun ms => away_unseen (unseen_delay P ms)
  have hshow : ∀ values, Away P (virtualWrite P 3 values) := by
    refine fun values => ⟨rfl, fun i s => ?_⟩
    dsimp only
    split
    · exact aside_emit (.put _ _ _ _) rfl rfl rfl
    · exact .put _ _ _ _
  have hsend : ∀ e : Event, e.onAlarm = false → Away P (send P fun _ => e) := fun e he =>
    away_unseen (unseen_send P fun _ => he)
  exact .seq turns_updateToTable (turns_away ⟨hdelay _,
    away_unseen (unseen_virtualWrite P 1 _ (by decide)), hdelay _, ⟨hshow _, hshow _⟩, hdelay _, hsend _ rfl,
    hdelay _, hsend _ rfl, hdelay _, trivial⟩)

theorem turns_answerIsAlcohol : Turns Filed (answerIsAlcohol P) Filed := by
  have hsay : Turns Filed (broadcastTXT .detectAlcohol (some .isAlcohol)) Alarmed :=
    turns_emit steady_filed (fun _ => rfl) fun _ _ h _ =>
      ⟨h.aside ⟨rfl, rfl, rfl, .inr ⟨_, rfl, rfl, rfl⟩⟩, rfl⟩
  have hset : ∀ f : State → State, (∀ s, Aside s.alarm (f s).alarm ∧ (f s).log = s.log) →
      Turns Alarmed (.set f) Alarmed := by
    refine fun f hf => turns_set steady_alarmed (fun s hs => ⟨hs.1.aside (hf s).1, ?_⟩) fun s => (hf s).2
    rw [show (f s).alarm.hist = s.alarm.hist from congrArg (List.filter Event.onAlarm) (hf s).2]
    exact hs.2
  have hforget : Turns Alarmed .skip Filed := Amid.skip steady_alarmed fun _ hv hi => (hv hi).1
  exact Amid.choose (.seq hsay (.seq (hset _ fun _ => ⟨.put _ _ _ _, rfl⟩) (.seq
    (hset _ fun _ => ⟨.put _ _ _ _, rfl⟩) (.seq (hset _ fun _ => ⟨.put _ _ _ _, rfl⟩)
    (.seq (Amid.choose turns_reportAlcohol hforget) (turns_away ⟨away_unseen (unseen_delay P _), trivial⟩))))))
    (Amid.done steady_filed)

/-- A text that ends in front of cell 106. -/
theorem writeBytes_row {a : Nat} {l : List UInt8} (h : a + l.length ≤ 106) (s : State) :
    (writeBytes a l s).alarm = s.alarm := by
  obtain ⟨m, hm⟩ := writeBytes_spec a l s
  have hrow : ∀ (l : List UInt8) (n : Nat) (s : State), a + n + l.length ≤ 106 →
      ((l.zipIdx n).foldl (fun s p => s.write (a + p.2) p.1) s).rom 106 = s.rom 106 := by
    intro l
    induction l with
    | nil => exact fun _ _ _ => rfl
    | cons b l ih =>
      intro n s hn
      rw [List.length_cons] at hn
      rw [List.zipIdx_cons, List.foldl_cons, ih _ _ (by omega)]
      exact if_neg (by omega)
  have h106 : m 106 = s.rom 106 := by
    have hr := hrow l 0 s (by omega)
    change (writeBytes a l s).rom 106 = s.rom 106 at hr
    rwa [hm] at hr
  rw [hm]
  simp [State.alarm, h106]

theorem turns_caiDat (P : Platform) {tenWiFi matkhau : List UInt8} (ht : tenWiFi.length ≤ 106)
    (hm : matkhau.length ≤ 74) : Turns Filed (caiDat tenWiFi matkhau) Filed := by
  have h : Lasting P spec (Unless Filed) := lasting_filed
  have hcopy : ∀ a l, a + l.length ≤ 106 → Turns Filed (.set (writeBytes a l)) Filed :=
    fun a l hl => h.unseen fun _ s => writeBytes_row hl s
  have hdelay : ∀ ms, Turns Filed (delay ms) Filed := fun ms => h.unseen (unseen_delay P ms)
  have hcommit : Turns Filed (.set State.commit) Filed := h.writes fun _ _ => .commit
  have hdone : Turns Filed .skip Filed := Amid.done steady_filed
  exact .seq (Amid.choose (.seq (hcopy 0 _ (by simp)) (.seq (hdelay _) (.seq (hcopy 0 _ (by omega)) (.seq
    (hcopy 32 _ (by omega)) (.seq (hdelay _) (.seq hcommit (.seq (hdelay _) hdone))))))) hdone)
    (.seq (.reset steady_filed.stable) hdone)

theorem turns_handleClient (P : Platform) : Turns Filed handleClient Filed := by
  have hst : Stable (spec.amid Alarm.Beside State.alarm) fun s => Unless Filed s.alarm := steady_filed.stable
  have hfit : ∀ i : Env, Stable (spec.amid Alarm.Beside State.alarm)
      fun s => Unless Filed s.alarm ∧ i.fits = true := fun i =>
    ⟨fun s hs => hst.inv s hs.1, fun s t hs hr => ⟨hst.rely s t hs.1 hr, hs.2⟩⟩
  refine Triple.poll (D := fun i s => Unless Filed s.alarm ∧ i.fits = true) hst (fun i k s hs hm hr => ?_)
    (fun i _ => ?_) fun _ hs => hs
  · exact ⟨hs, (hm _ s (by rw [Code.step, if_pos hr])).2.2⟩
  · by_cases hf : i.fits = true
    · refine Triple.pre ?_ (hfit i) fun _ hs => hs.1
      have hdone : Turns Filed .skip Filed := Amid.done steady_filed
      unfold Env.fits at hf
      cases hw : i.web with
      | none => exact hdone
      | some w =>
        cases w with
        | root => exact hdone
        | caidat tenWiFi matkhau =>
          rw [hw] at hf
          simp only [Bool.and_eq_true, decide_eq_true_eq] at hf
          exact turns_caiDat P hf.1 hf.2
    · exact Triple.absurd.pre (hfit i) fun _ hs => hf hs.2

theorem turns_sketch : Triple (spec.amid Alarm.Beside State.alarm) (fun s => Unless Loading s.alarm)
    (device P).boot fun _ => False := by
  have hload : Turns Loading (.set fun s => { s with rom := s.flash }) Loading :=
    turns_set steady_loading (fun _ h => ⟨⟨rfl, h.cell, h.row⟩, h.cyclic⟩) fun _ => rfl
  have hrow : Turns Loading (.set fun s => { s with rowIndex := s.read 106 }) Filed := by
    refine turns_set steady_loading (fun s h => ⟨⟨h.ram, h.cell, h.row⟩, h.cyclic, ?_, fun r hr => ?_⟩) fun _ => rfl
    · have hn : s.alarm.cell.toNat ≠ 0 := fun hz => h.cell (UInt8.toNat_inj.1 hz)
      show 1 ≤ s.read 106
      rw [State.read, if_pos (by decide), show s.rom 106 = s.alarm.cell from h.ram]
      omega
    · show s.read 106 = r + 1
      rw [State.read, if_pos (by decide), show s.rom 106 = s.alarm.cell from h.ram]
      exact h.row r hr
  exact .seq (lasting_loading.setup lasting_filed hload hrow) (.forever (fun _ _ => trivial)
    (lasting_filed.loop (turns_handleClient P) turns_answerIsAlcohol (turns_away away_alcoholGate)))

end

/-- At power-on, and after a reset. -/
theorem loading_powerOn {flash : Nat → UInt8} (h : flash 106 ≠ 0) : Unless Loading (powerOn flash).alarm := by
  have hn : rows (powerOn flash).alarm.hist = [] := rfl
  exact fun _ => ⟨⟨rfl, h, by simp [hn]⟩, hn ▸ cyclic_nil⟩

theorem loading_restart {s : State} (h : spec.inv s.alarm) : Unless Loading (restart s).alarm := by
  intro hi
  have hr : rows (restart s).alarm.hist = rows s.alarm.hist := rfl
  obtain ⟨hc, hs⟩ := h hi.2
  have hst := hs (hi.1 rfl)
  exact ⟨⟨rfl, hst.cell, by rw [hr]; exact hst.row⟩, by rw [hr]; exact hc⟩

end Rows

/-- Resets and clears of the table wait until an alarm has been handled, the app is connected while
it is, and no form of the web server reaches cell 106. -/
def Orderly (x : Choice Env Outside) (s t : State) : Prop :=
  (∀ e ∈ s.during t, e.breaks = true → handling s.log = false) ∧
    match x with
    | .run i => (handling s.log = true → i.link = true) ∧ i.fits = true
    | _ => True

instance (x : Choice Env Outside) (s t : State) : Decidable (Orderly x s t) :=
  match x with
  | .run _ => inferInstanceAs (Decidable ((∀ e ∈ _, _ → _) ∧ (_ → _) ∧ _))
  | .outside _ | .reset => inferInstanceAs (Decidable ((∀ e ∈ _, _ → _) ∧ True))

theorem intact_step {x : Choice Env Outside} {s t : State} (h : Orderly x s t) (hg : Grew s t)
    (hi : Intact s.alarm.hist) : Intact t.alarm.hist := by
  rcases hg with hl | ⟨e, hl⟩
  · rwa [show t.alarm.hist = s.alarm.hist from congrArg (List.filter Event.onAlarm) hl]
  · cases he : e.onAlarm with
    | false =>
      rwa [show t.alarm.hist = s.alarm.hist by
        show List.filter Event.onAlarm t.log = _
        rw [hl, List.filter_cons_of_neg (by simp [he])]
        rfl]
    | true =>
      rw [show t.alarm.hist = e :: s.alarm.hist by
        show List.filter Event.onAlarm t.log = _
        rw [hl, List.filter_cons_of_pos he]
        rfl]
      refine ⟨?_, hi⟩
      rintro rfl
      exact (handling_filter s.log).trans (h.1 .boot (by rw [during_of_log hl]; simp) rfl)

theorem rows_cyclic {P : Platform} {flash : Nat → UInt8} {xs : Run} (h0 : flash 106 ≠ 0)
    (hx : (device P).Along (fun x c d => Orderly x c.state d.state) xs ((device P).start (powerOn flash))) :
    Cyclic 20 (rows (after P flash xs).state.log) := by
  let C := Rows.spec.amid Alarm.Beside State.alarm
  have hr : ∀ s, C.inv s → Rows.Unless Rows.Loading ((device P).restart s).alarm :=
    fun s hs => Rows.loading_restart hs
  have hs : Machine.Always C ((device P).start (powerOn flash)) :=
    Machine.always_start Rows.turns_sketch (Rows.loading_powerOn h0)
  have hi : Intact (powerOn flash).alarm.hist := ⟨fun _ => rfl, trivial⟩
  have hend := (hx.and (along_grew P flash xs)).invariant
    (I := fun c => Machine.Always C c ∧ Intact c.state.alarm.hist) ⟨hs, hi⟩ fun x c hc hg => ?_
  · exact rows_filter (after P flash xs).state.log ▸ (hend.1.inv hend.2).1
  · refine ⟨(Machine.always_step Rows.turns_sketch hr x c hc.1 ?_).2, intact_step hg.1 hg.2 hc.2⟩
    cases x with
    | run i =>
      intro l t hst
      have ht : ((device P).step (.run i) c).state = t := by simp [Machine.step, hst]
      rw [ht] at hg
      refine ⟨fun e he hb => ?_, fun hh => hg.1.2.1 ((handling_filter _).symm.trans hh), hg.1.2.2⟩
      refine (handling_filter c.state.log).trans (hg.1.1 e ?_ hb)
      rw [during_of_log (log_of_filter hg.2 he)]
      simp
    | outside r => exact alarm_react r c.state
    | reset => trivial

/-- From a cell that is not 0, the alarms take the rows 1 to 20 in turn, and any 20 of them in a row
take different ones. -/
theorem alarm_rows (P : Platform) (flash : Nat → UInt8) (xs : Run) (h0 : flash 106 ≠ 0)
    (hx : (device P).Along (fun x c d => Orderly x c.state d.state) xs ((device P).start (powerOn flash))) :
    Cyclic 20 (rows (after P flash xs).state.log) ∧
      ∀ m, m <:+: rows (after P flash xs).state.log → m.length ≤ 20 → m.Nodup := by
  have h := rows_cyclic h0 hx
  exact ⟨h, fun m hm hl => (h.part hm).nodup (by exact_mod_cast hl)⟩

/-- A flash with the counter `n`. -/
def flashRow (n : UInt8) : Nat → UInt8 := fun a => if a = 106 then n else 0

/-- A drunk driver, up to the report. -/
def alarmed : Run := tested drunk ++ pause 1000 ++ idle 80

set_option maxRecDepth 10000 in
/-- Two alarms with a reset between them. -/
theorem alarm_rows_twice :
    rows (after bench (flashRow 20) (alarmed ++ .reset :: alarmed)).state.log = [1, 20] ∧
    Cyclic 20 (rows (after bench (flashRow 20) (alarmed ++ .reset :: alarmed)).state.log) :=
  ⟨by decide +kernel, (alarm_rows bench (flashRow 20) _ (by decide) (by decide +kernel)).1⟩

set_option maxRecDepth 10000 in
/-- From a cell that is 0 the first alarm takes row 0. -/
theorem alarm_row_zero : ¬ ∀ (P : Platform) (flash : Nat → UInt8) (xs : Run),
    (device P).Along (fun x c d => Orderly x c.state d.state) xs ((device P).start (powerOn flash)) →
    Cyclic 20 (rows (after P flash xs).state.log) := by
  intro h
  have hc := h bench (flashRow 0) alarmed (by decide +kernel)
  have hr : rows (after bench (flashRow 0) alarmed).state.log = [0] := by decide +kernel
  rw [hr] at hc
  exact absurd (hc.range 0 (by simp)).1 (by decide)

end Center
