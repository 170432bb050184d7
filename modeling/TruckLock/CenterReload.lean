import TruckLock.CenterRows
import TruckLock.CenterSettings

/-!
# What a reset would load

The settings in force, their image in RAM and the flash through whole runs. At
the top of `loop` the settings in force are those that a reset would load,
unless the app has cleared the alarm table since the last one; the duration and
the two limits are even then.
-/
namespace Center

open Firmware Spec

/-- The app has cleared the table since the last reset. -/
def cleared : List Event → Bool
  | [] => false
  | .boot :: _ => false
  | e :: l => e.clears || cleared l

/-- The settings, their image and the flash. -/
structure Shelf where
  store : Store
  cleared : Bool

def State.shelf (s : State) : Shelf := ⟨s.store, Center.cleared s.log⟩

namespace Shelf

/-- The image is stored, and so are the limits in force; the handler that clears the table writes
cell 105 and commits nothing. -/
structure Loaded (v : Shelf) : Prop where
  image : ∀ a, a ≠ 105 → v.store.rom a = v.store.flash a
  downLimit : v.store.downLimit = cell v.store.flash 102
  upLimit : v.store.upLimit = cell v.store.flash 103
  image105 : v.cleared = false → v.store.rom 105 = v.store.flash 105
  threshold : v.cleared = false → v.store.threshold = word v.store.flash 104

/-- The row counter is stored. -/
structure Settled (v : Shelf) : Prop where
  nonneg : 0 ≤ v.store.rowIndex
  byte : v.store.rowIndex < 256
  stored : v.cleared = false → v.store.rowIndex = cell v.store.flash 106

/-- A row can be entered. -/
def Free (v : Shelf) : Prop := 0 ≤ v.store.rowIndex ∧ v.store.rowIndex ≤ 20

/-- What the app may do to the row counter: leave it alone, or clear it. -/
structure Spares (v w : Shelf) : Prop where
  flash : w.store.flash 106 = v.store.flash 106
  row : w.cleared = v.cleared ∧ w.store.rowIndex = v.store.rowIndex ∨
    w.cleared = true ∧ (w.store.rowIndex = v.store.rowIndex ∨ w.store.rowIndex = 1)

/-- An assertion on the row counter that survives the app. -/
def Rowed (R : Shelf → Prop) : Prop := ∀ v w, Spares v w → R v → R w

theorem rowed_true : Rowed fun _ => True := fun _ _ _ _ => trivial

theorem rowed_free : Rowed Free := by
  intro v w h hv
  rcases h.row with ⟨-, hr⟩ | ⟨-, hr | hr⟩
  · rwa [Free, hr]
  · rwa [Free, hr]
  · rw [Free, hr]
    decide

theorem rowed_settled : Rowed Settled := by
  intro v w h hv
  rcases h.row with ⟨hc, hr⟩ | ⟨hc, hr | hr⟩
  · exact ⟨hr ▸ hv.nonneg, hr ▸ hv.byte, fun hw => by rw [hr, hv.stored (hc ▸ hw), cell, cell, h.flash]⟩
  · exact ⟨hr ▸ hv.nonneg, hr ▸ hv.byte, fun hw => by simp [hc] at hw⟩
  · exact ⟨by omega, by omega, fun hw => by simp [hc] at hw⟩

/-- The shelf is `v`. -/
def Holds (v w : Shelf) : Prop := w = v

/-- `loop` starts with everything stored. -/
def spec : Spec Env Shelf where
  ok _ _ _ := True
  good _ _ := True
  good_refl _ := trivial
  inv _ := True
  top v := Loaded v ∧ Settled v
  fin _ := True

abbrev Turns (A : Shelf → Prop) (c : Sketch) (B : Shelf → Prop) : Prop := spec.Leads State.shelf A c B

section

variable {A B : Shelf → Prop}

theorem turns_set {f : State → State} (h : ∀ s, A s.shelf → B (f s).shelf) : Turns A (.set f) B :=
  Leads.step (fun _ _ => trivial) fun _ s hs _ => ⟨trivial, h s hs⟩

/-- One state of the shelf at a time. -/
theorem turns_each {c : Sketch} (h : ∀ v, A v → Turns (Holds v) c B) : Turns A c B where
  stable := stable fun _ _ => trivial
  safe n k hk s hs := (h s.shelf hs).safe n k hk s rfl

theorem turns_put {v : Shelf} {f : State → State} {g : Store → Store} (hl : ∀ s, (f s).log = s.log)
    (hf : ∀ s, (f s).store = g s.store) : Turns (Holds v) (.set f) (Holds { v with store := g v.store }) := by
  refine turns_set fun s hs => ?_
  obtain rfl : s.shelf = v := hs
  rw [Holds, State.shelf, hl, hf]
  rfl

theorem turns_done : Turns A .skip A := Leads.done fun _ _ => trivial

end

/-- Code without handlers that leaves the shelf alone. -/
abbrev Dull (K : Sketch → Prop) (c : Sketch) : Prop := Made (fun s t : State => t.shelf = s.shelf) K c

section

variable {K : Sketch → Prop} {A : Shelf → Prop}

theorem dull_delay (ms : Nat) : Dull K (delay ms) := fun _ _ _ => rfl

theorem dull_reply (pin : Nat) (l : List Value) : Dull K (reply pin l) := by
  intro i s
  dsimp only
  split <;> rfl

theorem turns_dull {c : Sketch} (hc : Dull (fun _ => False) c) : Turns A c A :=
  Leads.idle (fun _ _ => trivial) (fun _ hk => hk.elim) hc

theorem turns_delay (ms : Nat) : Turns A (delay ms) A := turns_dull (dull_delay ms)

end

section

variable (P : Platform) {R : Shelf → Prop} {v : Shelf}

/-- The shelf is in order, with `R` of the row counter. -/
abbrev With (R : Shelf → Prop) (v : Shelf) : Prop := Loaded v ∧ R v

/-- A setting has been written, committed and read back. -/
theorem With.commit (hR : Rowed R) (h : With R v) {w : Store} (hf : w.flash = w.rom)
    (h106 : w.rom 106 = v.store.rom 106) (hrow : w.rowIndex = v.store.rowIndex)
    (hd : w.downLimit = cell w.rom 102) (hu : w.upLimit = cell w.rom 103)
    (ht : v.cleared = false → w.threshold = word w.rom 104) : With R { v with store := w } := by
  refine ⟨⟨fun _ _ => by rw [hf], by rw [hf, hd], by rw [hf, hu], fun _ => by rw [hf], fun hc => ?_⟩,
    hR v _ ⟨?_, .inl ⟨rfl, hrow⟩⟩ h.2⟩
  · rw [hf]
    exact ht hc
  · show w.flash 106 = v.store.flash 106
    rw [hf, h106, h.1.image 106 (by decide)]

/-- The settings other than the one that is being written. -/
theorem Loaded.cells (h : Loaded v) : v.store.downLimit = cell v.store.rom 102 ∧
    v.store.upLimit = cell v.store.rom 103 ∧ (v.cleared = false → v.store.threshold = word v.store.rom 104) := by
  have h104 := h.image 104 (by decide)
  refine ⟨?_, ?_, fun hc => ?_⟩
  · rw [h.downLimit, cell, cell, h.image 102 (by decide)]
  · rw [h.upLimit, cell, cell, h.image 103 (by decide)]
  · rw [h.threshold hc, word, word, cell, cell, cell, cell, h104, h.image105 hc]

theorem turns_writeWord {high low : Nat} (hh : high < 512) (hl : low < 512) (param : Param) :
    Turns (Holds v) (writeWord P high low param) (Holds { v with store :=
      ((v.store.write high (P.floatToByte (param.asFloat / 256))).write low (byte (param.asInt.tmod 256))).commit }) :=
  .seq (turns_delay _) (.seq (turns_put (g := fun w => w.write high _) (fun _ => rfl)
      fun s => Settings.store_write hh _ s)
    (.seq (turns_put (g := fun w => w.write low _) (fun _ => rfl) fun s => Settings.store_write hl _ s)
    (.seq (turns_put (g := Store.commit) (fun _ => rfl) fun _ => rfl) turns_done)))

/-- A one-byte setting. -/
theorem turns_byte {a : Nat} (ha : a < 512) (b : UInt8) {f : State → State} {g : Store → Store}
    (hl : ∀ s, (f s).log = s.log) (hf : ∀ s, (f s).store = g s.store) :
    Turns (Holds v) (.block [delay 10, .set fun s => s.write a b, .set State.commit, delay 10, .set f, delay 10])
      (Holds { v with store := g (v.store.write a b).commit }) :=
  .seq (turns_delay _) (.seq (turns_put (g := fun w => w.write a _) (fun _ => rfl)
      fun s => Settings.store_write ha _ s)
    (.seq (turns_put (g := Store.commit) (fun _ => rfl) fun _ => rfl) (.seq (turns_delay _)
    (.seq (turns_put (g := g) hl hf) (.seq (turns_delay _) turns_done)))))

theorem turns_blynkWriteV30 (hR : Rowed R) (param : Param) : Turns (With R) (blynkWriteV30 P param) (With R) := by
  refine turns_each fun v h => ?_
  obtain ⟨hd, hu, ht⟩ := h.1.cells
  refine .seq (turns_writeWord P (by decide) (by decide) param) (.seq (turns_delay _)
    (Leads.skip (fun _ _ => trivial) ?_))
  rintro w rfl
  refine h.commit hR rfl ?_ rfl ?_ ?_ fun hc => ?_
  · simp
  · simpa [cell, Store.write, Store.commit] using hd
  · simpa [cell, Store.write, Store.commit] using hu
  · simpa [word, cell, Store.write, Store.commit] using ht hc

theorem turns_blynkWriteV32 (hR : Rowed R) (param : Param) : Turns (With R) (blynkWriteV32 P param) (With R) := by
  refine turns_each fun v h => ?_
  obtain ⟨-, hu, ht⟩ := h.1.cells
  refine (turns_byte (v := v) (a := 102) (by decide) _ (f := fun s => { s with downLimit := s.read 102 })
    (g := fun w => { w with downLimit := cell w.rom 102 }) (fun _ => rfl) fun _ => rfl).post ?_
  intro s hs
  rw [show s.shelf = _ from hs]
  refine h.commit hR rfl ?_ rfl rfl ?_ fun hc => ?_
  · simp
  · simpa [cell, Store.write, Store.commit] using hu
  · simpa [word, cell, Store.write, Store.commit] using ht hc

theorem turns_blynkWriteV33 (hR : Rowed R) (param : Param) : Turns (With R) (blynkWriteV33 P param) (With R) := by
  refine turns_each fun v h => ?_
  obtain ⟨hd, -, ht⟩ := h.1.cells
  refine (turns_byte (v := v) (a := 103) (by decide) _ (f := fun s => { s with upLimit := s.read 103 })
    (g := fun w => { w with upLimit := cell w.rom 103 }) (fun _ => rfl) fun _ => rfl).post ?_
  intro s hs
  rw [show s.shelf = _ from hs]
  refine h.commit hR rfl ?_ rfl ?_ rfl fun hc => ?_
  · simp
  · simpa [cell, Store.write, Store.commit] using hd
  · simpa [word, cell, Store.write, Store.commit] using ht hc

theorem turns_blynkWriteV34 (hR : Rowed R) (param : Param) : Turns (With R) (blynkWriteV34 P param) (With R) := by
  refine turns_each fun v h => ?_
  obtain ⟨hd, hu, -⟩ := h.1.cells
  refine .seq (turns_writeWord P (by decide) (by decide) param) (.seq (turns_delay _) (.seq
    (turns_put (g := fun w => { w with threshold := word w.rom 104 }) (fun _ => rfl) fun _ => rfl)
    (.seq (turns_delay _) (Leads.skip (fun _ _ => trivial) ?_))))
  rintro w rfl
  refine h.commit hR rfl ?_ rfl ?_ ?_ fun _ => rfl
  · simp
  · simpa [cell, Store.write, Store.commit] using hd
  · simpa [cell, Store.write, Store.commit] using hu

/-- The handler of V11: the counter is 1 in RAM only, and cell 105 of the image is 1. -/
theorem turns_clear (hR : Rowed R) (param : Param) :
    Turns (With R) (handleApp P (some ⟨.V11, param⟩)) (With R) := by
  have hreply : ∀ A, Turns A (.block [delay 10, reply 10 [.text "clr"], delay 20]) A := fun _ =>
    turns_dull ⟨dull_delay _, dull_reply _ _, dull_delay _, trivial⟩
  by_cases hp : param.asFloat = 1
  · have hsay : Turns (With R) (.set fun s => s.emit (.app ⟨.V11, param⟩)) fun v => With R v ∧ v.cleared = true := by
      refine turns_set fun s hs => ?_
      have hc : (s.emit (.app ⟨.V11, param⟩)).shelf.cleared = true := by
        simp [State.shelf, State.emit, Center.cleared, Event.clears, AppWrite.clears, hp]
      exact ⟨⟨⟨hs.1.image, hs.1.downLimit, hs.1.upLimit, fun h => by simp [hc] at h, fun h => by simp [hc] at h⟩,
        hR s.shelf _ ⟨rfl, .inr ⟨hc, .inl rfl⟩⟩ hs.2⟩, hc⟩
    have hrow : Turns (fun v => With R v ∧ v.cleared = true) (.set fun s => { s with rowIndex := 1 })
        fun v => With R v ∧ v.cleared = true := turns_set fun s hs =>
      ⟨⟨⟨hs.1.1.image, hs.1.1.downLimit, hs.1.1.upLimit, hs.1.1.image105, hs.1.1.threshold⟩,
        hR s.shelf _ ⟨rfl, .inr ⟨hs.2, .inr rfl⟩⟩ hs.1.2⟩, hs.2⟩
    have hcell : Turns (fun v => With R v ∧ v.cleared = true)
      (.set fun s => s.write 105 (byte s.rowIndex)) (With R) := by
      refine turns_set fun s hs => ?_
      have hc : (s.write 105 (byte s.rowIndex)).shelf.cleared = true := hs.2
      refine ⟨⟨fun a ha => ?_, hs.1.1.downLimit, hs.1.1.upLimit, fun h => by simp [hc] at h,
        fun h => by simp [hc] at h⟩, hR s.shelf _ ⟨rfl, .inr ⟨hc, .inl rfl⟩⟩ hs.1.2⟩
      simpa [State.shelf, State.store, State.write, ha] using hs.1.1.image a ha
    have hbody : Turns (fun v => With R v ∧ v.cleared = true) (blynkWriteV11 param) (With R) :=
      Leads.known (b := true) (fun _ _ => trivial) (fun _ _ _ => by simpa using hp)
        (.seq hrow (.seq hcell (hreply _)))
    exact .seq hsay hbody
  · have hsay : Turns (With R) (.set fun s => s.emit (.app ⟨.V11, param⟩)) (With R) := by
      refine turns_dull fun _ s => ?_
      simp [State.shelf, State.emit, Center.cleared, Event.clears, AppWrite.clears, hp]
      rfl
    have hbody : Turns (With R) (blynkWriteV11 param) (With R) :=
      Leads.known (b := false) (fun _ _ => trivial) (fun _ _ _ => by simpa using hp) turns_done
    exact .seq hsay hbody

/-- The handlers of the app keep the shelf in order. -/
theorem turns_handleApp (hR : Rowed R) (w : Option AppWrite) : Turns (With R) (handleApp P w) (With R) := by
  cases w with
  | none => exact turns_done
  | some w =>
    obtain ⟨pin, param⟩ := w
    have hsay : pin ≠ .V11 → Turns (With R) (.set fun s => s.emit (.app ⟨pin, param⟩)) (With R) := fun hp => by
      refine turns_dull fun _ s => ?_
      simp [State.shelf, State.emit, Center.cleared, Event.clears, AppWrite.clears, hp]
      rfl
    cases pin with
    | V11 => exact turns_clear P hR param
    | V1 =>
      have htell : ∀ n text (f : State → State), (∀ s, (f s).shelf = s.shelf) → Turns (With R) (.block [delay 10,
          reply 1 [.int n], delay 20, reply 4 [.text text], delay 20, .set f]) (With R) := fun n text f hf =>
        turns_dull ⟨dull_delay _, dull_reply _ _, dull_delay _, dull_reply _ _, dull_delay _, fun _ => hf, trivial⟩
      exact .seq (hsay (by decide)) (Leads.choose (htell 0 _ _ fun _ => rfl) (htell 1 _ _ fun _ => rfl))
    | V21 => exact .seq (hsay (by decide)) (turns_dull ⟨dull_delay _, fun _ _ => rfl, dull_delay _, trivial⟩)
    | V22 => exact .seq (hsay (by decide)) (turns_dull ⟨dull_delay _, fun _ _ => rfl, dull_delay _, trivial⟩)
    | V30 => exact .seq (hsay (by decide)) (turns_blynkWriteV30 P hR param)
    | V32 => exact .seq (hsay (by decide)) (turns_blynkWriteV32 P hR param)
    | V33 => exact .seq (hsay (by decide)) (turns_blynkWriteV33 P hR param)
    | V34 => exact .seq (hsay (by decide)) (turns_blynkWriteV34 P hR param)

theorem turns_blynkRun (hR : Rowed R) : Turns (With R) (blynkRun P) (With R) :=
  Leads.poll (fun _ _ => trivial) fun i => turns_handleApp P hR i.app

/-- Code that leaves the shelf to the app. -/
abbrev DullApp (c : Sketch) : Prop := Dull (· = blynkRun P) c

theorem turns_app (hR : Rowed R) {c : Sketch} (hc : DullApp P c) : Turns (With R) c (With R) :=
  Leads.idle (fun _ _ => trivial) (fun _ hk => hk ▸ turns_blynkRun P hR) hc

theorem dull_send {e : State → Event} (he : ∀ s l, Center.cleared (e s :: l) = Center.cleared l) :
    DullApp P (send P e) := by
  refine ⟨rfl, fun i s => ?_⟩
  dsimp only
  split
  · exact congrArg (Shelf.mk _) (he s s.log)
  · rfl

theorem dull_virtualWrite (pin : Nat) (l : State → List Value) : DullApp P (virtualWrite P pin l) :=
  dull_send P fun _ _ => rfl

theorem dull_testWiFi (n : Nat) : DullApp P (testWiFi (setupOnline P) setupOffline n) := by
  have hblink : DullApp P (.block [setLed false, delay 20, setLed true, delay 20]) :=
    ⟨fun _ _ => rfl, dull_delay _, fun _ _ => rfl, dull_delay _, trivial⟩
  induction n with
  | zero => exact ⟨fun _ _ => rfl, fun _ _ => rfl, dull_delay _, trivial⟩
  | succ n ih =>
    exact ⟨⟨fun _ _ => rfl, dull_delay _, fun _ _ => rfl, dull_delay _, made_times hblink 7, rfl,
      dull_delay _, fun _ _ => rfl, dull_delay _, trivial⟩, dull_delay _, ih⟩

theorem dull_handleTimer (t : Option TimerCall) : DullApp P (handleTimer P t) := by
  have hblink : ∀ (b : Bool) n, DullApp P (.block [
      .set fun s => { s with ledConnect := b }, virtualWrite P 0 fun _ => [.int n], delay 20]) :=
    fun b n => ⟨fun _ _ => rfl, dull_virtualWrite P _ _, dull_delay _, trivial⟩
  cases t with
  | none => trivial
  | some t =>
    cases t with
    | clockCurrent => exact fun _ _ => rfl
    | blinkLedConnect => exact ⟨hblink false 0, hblink true 255⟩

theorem dull_handleFrame (payload : Option String) : DullApp P (handleFrame P payload) := by
  cases payload with
  | none => trivial
  | some payload =>
    refine ⟨fun _ _ => rfl, ?_⟩
    unfold webSocketEvent
    split
    · exact ⟨fun _ _ => rfl, fun _ _ => rfl, trivial⟩
    split
    · exact ⟨fun _ _ => rfl, fun _ _ => rfl, trivial⟩
    split
    · exact ⟨⟨fun _ _ => rfl, fun _ _ => rfl⟩, fun _ _ => rfl, fun _ _ => rfl, dull_delay _,
        dull_virtualWrite P _ _, dull_delay _, fun _ _ => rfl, trivial⟩
    · trivial

theorem dull_statusGate (online : Bool) : DullApp P (statusGate P online) := by
  have htell : ∀ l, DullApp P (.block [delay 10, virtualWrite P 4 l, delay 20]) := fun l =>
    ⟨dull_delay _, dull_virtualWrite P _ _, dull_delay _, trivial⟩
  exact ⟨⟨fun _ _ => rfl, fun _ => ⟨⟨htell _, htell _⟩, trivial⟩, dull_delay _, trivial⟩, trivial⟩

theorem dull_minuteGate : DullApp P minuteGate :=
  ⟨⟨fun _ _ => rfl, fun _ _ => rfl, ⟨⟨fun _ _ => rfl, fun _ _ => rfl, fun _ _ => rfl, trivial⟩, trivial⟩, trivial⟩,
    trivial⟩

theorem dull_sample : DullApp P (sample P) :=
  ⟨fun _ _ => rfl, fun _ _ => rfl, fun _ => ⟨⟨fun _ _ => rfl, trivial⟩, ⟨fun _ _ => rfl, trivial⟩, trivial⟩,
    fun _ _ => rfl, ⟨fun _ _ => rfl, trivial⟩, fun _ _ => rfl, trivial⟩

theorem dull_close (downLimit upLimit threshold : Int) : DullApp P (close P downLimit upLimit threshold) :=
  ⟨fun _ _ => rfl, fun _ _ => ⟨dull_delay _, dull_virtualWrite P _ _, dull_delay _, trivial⟩,
    ⟨fun _ => ⟨fun _ _ => rfl, fun _ => ⟨⟨fun _ _ => rfl, dull_delay _⟩, fun _ _ => rfl⟩⟩,
      fun _ _ => rfl, dull_delay _⟩, fun _ _ => rfl, fun _ _ => rfl, trivial⟩

theorem dull_alcoholGate : DullApp P (alcoholGate P) :=
  ⟨⟨dull_delay _, fun _ _ _ => ⟨fun _ _ => rfl, ⟨⟨fun _ _ => rfl, fun _ => ⟨dull_sample P, trivial⟩⟩,
    dull_close P _ _ _⟩, fun _ _ => rfl, trivial⟩, dull_delay _, trivial⟩, trivial⟩

theorem dull_answerNotAlcohol : DullApp P (answerNotAlcohol P) :=
  ⟨⟨fun _ _ => rfl, fun _ _ => rfl, fun _ _ => rfl, fun _ _ => rfl,
    ⟨⟨dull_delay _, dull_virtualWrite P _ _, dull_delay _, dull_virtualWrite P _ _, dull_delay _, trivial⟩, trivial⟩,
    dull_delay _, fun _ _ => rfl, trivial⟩, trivial⟩

theorem dull_answerBlockNow : DullApp P answerBlockNow :=
  ⟨⟨fun _ _ => rfl, fun _ _ => rfl, fun _ _ => rfl, fun _ _ => rfl, trivial⟩, trivial⟩

theorem dull_answerUnblockNow : DullApp P answerUnblockNow :=
  ⟨⟨fun _ _ => rfl, fun _ _ => rfl, fun _ _ => rfl, fun _ _ => rfl, fun _ _ => rfl, trivial⟩, trivial⟩

theorem dull_checkRelay : DullApp P (checkRelay P) :=
  ⟨⟨fun _ _ => rfl, dull_delay _, dull_virtualWrite P _ _, fun _ => trivial, trivial⟩, trivial⟩

/-- A row is entered: the counter leaves the range of the rows for a moment. -/
theorem turns_updateToTable : Turns (With Settled) (updateToTable P) (With Settled) := by
  have hfree : ∀ {c}, DullApp P c → Turns (With Free) c (With Free) := turns_app P rowed_free
  have hdelay : ∀ ms, Turns (With Free) (delay ms) (With Free) := fun ms => turns_delay ms
  have hcheck : Turns (With Settled) (.when (fun _ s => 21 ≤ s.rowIndex) (.set fun s => { s with rowIndex := 1 }))
      (With Free) := by
    refine Leads.when (T := Loaded) (fun _ _ => trivial) (fun _ s hs _ => hs.1) (fun _ s hs hr => ⟨hs.1, ?_⟩) ?_
    · have hr : ¬ 21 ≤ s.rowIndex := of_decide_eq_false hr
      exact ⟨hs.2.nonneg, by show s.rowIndex ≤ 20; omega⟩
    · exact turns_set fun s hs => ⟨⟨hs.image, hs.downLimit, hs.upLimit, hs.image105, hs.threshold⟩,
        show (0 : Int) ≤ 1 by decide, show (1 : Int) ≤ 20 by decide⟩
  have hstore : Turns (With Free) (.block [.set fun s => { s with rowIndex := s.rowIndex + 1 },
      .set fun s => s.write 106 (byte s.rowIndex), .set State.commit]) (With Settled) := by
    refine turns_each fun v h => ?_
    refine .seq (turns_put (g := fun w => { w with rowIndex := w.rowIndex + 1 }) (fun _ => rfl) fun _ => rfl) (.seq
      (turns_put (g := fun w => w.write 106 (byte w.rowIndex)) (fun _ => rfl) fun s =>
        Settings.store_write (by decide) _ s) (.seq (turns_put (g := Store.commit) (fun _ => rfl) fun _ => rfl)
      (Leads.skip (fun _ _ => trivial) ?_)))
    rintro w rfl
    obtain ⟨hd, hu, ht⟩ := h.1.cells
    obtain ⟨h0, h20⟩ := h.2
    have hb : ((byte (v.store.rowIndex + 1)).toNat : Int) = v.store.rowIndex + 1 :=
      Settings.cell_byte (by omega) (by omega)
    refine ⟨⟨fun _ _ => rfl, ?_, ?_, fun _ => rfl, fun hc => ?_⟩, ?_, ?_, fun _ => ?_⟩
    · simpa [cell, Store.write, Store.commit] using hd
    · simpa [cell, Store.write, Store.commit] using hu
    · simpa [word, cell, Store.write, Store.commit] using ht hc
    · show 0 ≤ v.store.rowIndex + 1
      omega
    · show v.store.rowIndex + 1 < 256
      omega
    · simpa [cell, Store.write, Store.commit] using hb.symm
  exact .seq hcheck (.seq (hdelay _) (.seq (hfree fun _ => dull_virtualWrite P _ _) (.seq (hdelay _) (.seq
    (hfree fun _ => dull_virtualWrite P _ _) (.seq (hdelay _) hstore)))))

theorem turns_answerIsAlcohol : Turns (With Settled) (answerIsAlcohol P) (With Settled) := by
  have hdull : ∀ {c}, DullApp P c → Turns (With Settled) c (With Settled) := turns_app P rowed_settled
  have hreport : Turns (With Settled) (reportAlcohol P) (With Settled) :=
    .seq (turns_updateToTable P) (hdull ⟨dull_delay _, dull_virtualWrite P _ _, dull_delay _,
      ⟨dull_virtualWrite P _ _, dull_virtualWrite P _ _⟩, dull_delay _, dull_send P fun _ _ => rfl, dull_delay _,
      dull_send P fun _ _ => rfl, dull_delay _, trivial⟩)
  exact Leads.choose (.seq (hdull fun _ _ => rfl) (.seq (hdull fun _ _ => rfl) (.seq (hdull fun _ _ => rfl) (.seq
    (hdull fun _ _ => rfl) (.seq (Leads.choose hreport turns_done) (hdull ⟨dull_delay _, trivial⟩)))))) turns_done

/-- Whatever the form has written, a reset follows. -/
theorem turns_handleRequest {A B : Shelf → Prop} (hB : Turns A .skip B) (w : Option WebRequest) :
    Turns A (handleRequest w) B := by
  cases w with
  | none => exact hB
  | some w =>
    cases w with
    | root => exact hB
    | caidat tenWiFi matkhau =>
      have hany : ∀ (f : State → State), Turns (fun _ => True) (.set f) fun _ => True := fun f =>
        turns_set fun _ _ => trivial
      have hdone : Turns (fun _ => True) .skip fun _ => True := turns_done
      have hdelay : ∀ ms, Turns (fun _ => True) (delay ms) fun _ => True := fun ms => turns_delay ms
      have hwrite : Turns (fun _ => True) (.when (fun _ _ => 0 < tenWiFi.length && 0 < matkhau.length) (.block [
          .set (writeBytes 0 (List.replicate 96 0)), delay 400, .set (writeBytes 0 tenWiFi),
          .set (writeBytes 32 matkhau), delay 400, .set State.commit, delay 200])) fun _ => True :=
        Leads.choose (.seq (hany _) (.seq (hdelay _) (.seq (hany _) (.seq (hany _) (.seq (hdelay _)
          (.seq (hany _) (.seq (hdelay _) hdone))))))) hdone
      have hreset : Turns (fun _ => True) (.seq .reset .skip) B :=
        .seq (R := fun _ => False) (.reset (stable (A := fun _ => True) fun _ _ => trivial)) .absurd
      exact Triple.pre (.seq hwrite hreset) (stable fun _ _ => trivial) fun _ _ => trivial

theorem turns_loop : Turns (With Settled) (loop P) (With Settled) := by
  have hdull : ∀ {c}, DullApp P c → Turns (With Settled) c (With Settled) := turns_app P rowed_settled
  have hclient : Turns (With Settled) handleClient (With Settled) :=
    Leads.poll (fun _ _ => trivial) fun i => turns_handleRequest turns_done i.web
  have hframes : Turns (With Settled) (webSocketLoop P) (With Settled) :=
    Leads.poll (fun _ _ => trivial) fun i => hdull (dull_handleFrame P i.frame)
  have htimers : Turns (With Settled) (timerRun P) (With Settled) :=
    Leads.choose (Leads.poll (fun _ _ => trivial) fun i => hdull (dull_handleTimer P i.timer)) turns_done
  have hupdate : Turns (With Settled) (updateGate P) (With Settled) :=
    Leads.choose (.seq (hdull fun _ _ => rfl) (.seq (.seq (turns_answerIsAlcohol P) (hdull ⟨dull_answerNotAlcohol P,
      dull_answerBlockNow P, dull_answerUnblockNow P, dull_checkRelay P, trivial⟩)) turns_done)) turns_done
  have hbody : ∀ online, Turns (With Settled) (loopBody P online) (With Settled) := fun online =>
    .seq hclient (.seq hframes (.seq hupdate (.seq (hdull (dull_statusGate P online)) (.seq
      (hdull (dull_minuteGate P)) (.seq (hdull (dull_alcoholGate P)) (.seq (turns_blynkRun P rowed_settled)
      (.seq htimers (hdull ⟨dull_delay _, trivial⟩))))))))
  exact Leads.choose (hbody false) (Leads.choose (hbody true) (hdull ⟨fun _ _ => rfl, dull_delay _, trivial, trivial⟩))

/-- `setup` loads the image, the limits and the threshold before any handler runs, and the counter after. -/
theorem turns_setup : Turns (fun v => v.cleared = false) (setup P) (With Settled) := by
  have hearly : ∀ {c}, DullApp P c → Turns (With fun _ => True) c (With fun _ => True) := turns_app P rowed_true
  have hdull : ∀ {c}, DullApp P c → Turns (With Settled) c (With Settled) := turns_app P rowed_settled
  have hdelay : ∀ ms, Turns (With fun _ => True) (delay ms) (With fun _ => True) := fun ms => turns_delay ms
  have hrow : Turns (With fun _ => True) (.set fun s => { s with rowIndex := s.read 106 }) (With Settled) := by
    refine turns_set fun s hs => ⟨⟨hs.1.image, hs.1.downLimit, hs.1.upLimit, hs.1.image105, hs.1.threshold⟩, ?_⟩
    have hn := (s.rom 106).toNat_lt
    refine ⟨Int.natCast_nonneg _, ?_, fun _ => congrArg (fun b : UInt8 => (b.toNat : Int)) (hs.1.image 106 (by decide))⟩
    show ((s.rom 106).toNat : Int) < 256
    omega
  have hend : DullApp P (.block [.set fun s => { s with BLOCK := true }, delay 10, virtualWrite P 1 fun _ => [.int 1],
      delay 20, virtualWrite P 6 fun _ => [.text "   Lỗi kết nối với Relay"], delay 20,
      .set fun s => { s with previousOneMinuteCounter := s.millis }, .set fun s => { s with alcoholFlash := false },
      .set fun s => s.emit .started]) :=
    ⟨fun _ _ => rfl, dull_delay _, dull_virtualWrite P _ _, dull_delay _, dull_virtualWrite P _ _, dull_delay _,
      fun _ _ => rfl, fun _ _ => rfl, fun _ _ => rfl, trivial⟩
  have hload : ∀ v : Shelf, v.cleared = false → Turns (Holds { v with store := { v.store with
        rom := v.store.flash, downLimit := cell v.store.flash 102, upLimit := cell v.store.flash 103,
        threshold := word v.store.flash 104 } })
      (.ite (fun i _ => i.oled) .skip (.whilst (fun _ _ => true) .skip)) (With fun _ => True) := by
    refine fun v hc => Triple.pre (hearly ⟨trivial, trivial⟩) (stable fun _ _ => trivial) fun s hs => ?_
    rw [show s.shelf = _ from hs]
    exact ⟨⟨fun _ _ => rfl, rfl, rfl, fun _ => rfl, fun _ => rfl⟩, trivial⟩
  refine turns_each fun v hc => ?_
  refine .seq (turns_put (g := fun w => { w with rom := w.flash }) (fun _ => rfl) fun _ => rfl)
    (.seq (turns_dull fun _ _ => rfl) (.seq (turns_dull fun _ _ => rfl) (.seq
    (turns_put (g := fun w => { w with downLimit := cell w.rom 102 }) (fun _ => rfl) fun _ => rfl) (.seq
    (turns_put (g := fun w => { w with upLimit := cell w.rom 103 }) (fun _ => rfl) fun _ => rfl) (.seq
    (turns_put (g := fun w => { w with threshold := word w.rom 104 }) (fun _ => rfl) fun _ => rfl) ?_)))))
  exact .seq (hload v hc) (.seq (hdelay _) (.seq (hearly fun _ _ => rfl) (.seq (hdelay _) (.seq
    (hearly (dull_testWiFi P 20)) (.seq (hdelay _) (.seq hrow (hdull hend)))))))

theorem turns_sketch : Triple (spec.on State.shelf) (fun s => s.shelf.cleared = false) (device P).boot fun _ => False :=
  .seq (turns_setup P) (.forever (fun _ hs => hs) (turns_loop P))

end

theorem shelf_react (r : Outside) (s : State) : (react r s).shelf = s.shelf := by
  cases r with
  | wait ms => rfl
  | button spin =>
    obtain ⟨last, c, x, hs, -, -⟩ := press_spec spin s
    simp only [react]
    split
    · rw [hs]
      rfl
    · rfl

theorem always (P : Platform) (flash : Nat → UInt8) (xs : Run) :
    Machine.Always (spec.on State.shelf) (after P flash xs) := by
  have hmeet : (device P).Along (fun x c _ => (device P).Meet (spec.on State.shelf) x c) xs
      ((device P).start (powerOn flash)) := by
    refine (along_iff xs _).2 fun _ x _ _ => ?_
    cases x with
    | run i => exact fun _ _ _ => trivial
    | outside r => exact shelf_react r _
    | reset => trivial
  exact Machine.always_exec (turns_sketch P) (fun _ _ => rfl) xs _
    (Machine.always_start (turns_sketch P) (s := powerOn flash) rfl) hmeet

/-- The settings in force are those that `setup` would load. -/
theorem Loaded.ram {v : Shelf} (h : Loaded v) (hs : Settled v) :
    v.store.stored.duration = v.store.ram.duration ∧ v.store.stored.downLimit = v.store.ram.downLimit ∧
      v.store.stored.upLimit = v.store.ram.upLimit ∧ (v.cleared = false → v.store.stored = v.store.ram) := by
  have hd : v.store.stored.duration = v.store.ram.duration := by
    simp only [Store.stored, Store.ram, word, cell, h.image 100 (by decide), h.image 101 (by decide)]
  refine ⟨hd, h.downLimit.symm, h.upLimit.symm, fun hc => ?_⟩
  exact Settings.ext hd h.downLimit.symm h.upLimit.symm (h.threshold hc).symm (hs.stored hc).symm

end Shelf

/-- From the top of `loop` a reset brings back the duration and the two limits in force, whatever the app has
written and whenever; and all the settings, if the app has not cleared the table since the last reset. -/
theorem reset_keeps_settings (P : Platform) (flash : Nat → UInt8) (xs ys : Run) (t : State)
    (h : (after P flash xs).code = [.forever (loop P)]) (hy : Calm ys)
    (ht : finish react ys [setup P] (restart (after P flash xs).state) = some t) :
    t.store.ram.duration = (after P flash xs).state.store.ram.duration ∧
      t.store.ram.downLimit = (after P flash xs).state.store.ram.downLimit ∧
      t.store.ram.upLimit = (after P flash xs).state.store.ram.upLimit ∧
      (cleared (after P flash xs).state.log = false → t.store.ram = (after P flash xs).state.store.ram) := by
  obtain ⟨hl, hs⟩ : Shelf.With Shelf.Settled (after P flash xs).state.shelf := (Shelf.always P flash xs).top h
  have hst : t.store = (restart (after P flash xs).state).store.load :=
    Leads.finish_fed Settings.store_react (Settings.leads_setup P) hy rfl ht
  have hram : t.store.ram = (after P flash xs).state.store.stored := by
    rw [hst]
    rfl
  rw [hram]
  exact hl.ram hs

/-- The app sets the threshold in the first round of `loop`. -/
def thresholdSet : Run := idle 223 ++ [.run { app := some ⟨.V34, .ofInt 300⟩ }] ++ idle 30

set_option maxRecDepth 10000 in
theorem reset_keeps_settings_threshold :
    ∃ t, finish react (idle 163) [setup bench] (restart (after bench (flashOf 5) thresholdSet).state) = some t ∧
      (after bench (flashOf 5) thresholdSet).state.store.ram.threshold = 300 ∧
      t.store.ram.duration = (after bench (flashOf 5) thresholdSet).state.store.ram.duration ∧
      t.store.ram.downLimit = (after bench (flashOf 5) thresholdSet).state.store.ram.downLimit ∧
      t.store.ram.upLimit = (after bench (flashOf 5) thresholdSet).state.store.ram.upLimit ∧
      (cleared (after bench (flashOf 5) thresholdSet).state.log = false →
        t.store.ram = (after bench (flashOf 5) thresholdSet).state.store.ram) := by
  have hf : (finish react (idle 163) [setup bench]
      (restart (after bench (flashOf 5) thresholdSet).state)).isSome = true := by decide +kernel
  have hcode : (after bench (flashOf 5) thresholdSet).code = [.forever (loop bench)] := rfl
  obtain ⟨t, ht⟩ := Option.isSome_iff_exists.1 hf
  exact ⟨t, ht, by decide +kernel, reset_keeps_settings bench (flashOf 5) thresholdSet (idle 163) t hcode
    (calm_idle 163) ht⟩

end Center
