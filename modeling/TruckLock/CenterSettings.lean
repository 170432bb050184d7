import TruckLock.Center
import TruckLock.Views
import Mathlib.Data.Rat.Floor

/-!
# The stored settings

Five settings share one EEPROM, as numbered cells, and are mirrored in
globals. The abstract record says what each operation means; the globals and
the image in RAM are one copy of it, and what `setup` would load from flash is
the other.
-/
namespace Center

open Firmware Spec

@[ext] structure Settings where
  duration : Int
  downLimit : Int
  upLimit : Int
  threshold : Int
  rowIndex : Int
  deriving DecidableEq, Repr

/-- The operations on the settings: writes of the app, a row of the alarm table, a reset. -/
inductive Op where
  | V11
  | V30 (n : UInt16)
  | V32 (n : UInt8)
  | V33 (n : UInt8)
  | V34 (n : UInt16)
  | updateToTable
  | reset
  deriving DecidableEq, Repr

/-- What an operation means. -/
def Op.apply (a : Settings) : Op → Settings
  | .V11 => { a with rowIndex := 1 }
  | .V30 n => { a with duration := n.toNat }
  | .V32 n => { a with downLimit := n.toNat }
  | .V33 n => { a with upLimit := n.toNat }
  | .V34 n => { a with threshold := n.toNat }
  | .updateToTable => { a with rowIndex := (if 21 ≤ a.rowIndex then 1 else a.rowIndex) + 1 }
  | .reset => a

def Op.code (P : Platform) : Op → Sketch
  | .V11 => handleApp P (some ⟨.V11, .ofInt 1⟩)
  | .V30 n => handleApp P (some ⟨.V30, .ofInt n.toNat⟩)
  | .V32 n => handleApp P (some ⟨.V32, .ofInt n.toNat⟩)
  | .V33 n => handleApp P (some ⟨.V33, .ofInt n.toNat⟩)
  | .V34 n => handleApp P (some ⟨.V34, .ofInt n.toNat⟩)
  | .updateToTable => Center.updateToTable P
  | .reset => setup P

/-- The state in which the code of an operation starts. -/
def Op.enter : Op → State → State
  | .reset, s => restart s
  | _, s => s

/-- The part of the state that the settings are kept in. -/
@[ext] structure Store where
  rom : Nat → UInt8
  flash : Nat → UInt8
  downLimit : Int
  upLimit : Int
  threshold : Int
  rowIndex : Int

def State.store (s : State) : Store where
  rom := s.rom
  flash := s.flash
  downLimit := s.downLimit
  upLimit := s.upLimit
  threshold := s.threshold
  rowIndex := s.rowIndex

def cell (m : Nat → UInt8) (a : Nat) : Int := (m a).toNat

/-- Two cells, the high one first. -/
def word (m : Nat → UInt8) (a : Nat) : Int := cell m a * 256 + cell m (a + 1)

namespace Store

/-- The settings that the sketch works with. -/
def ram (v : Store) : Settings where
  duration := word v.rom 100
  downLimit := v.downLimit
  upLimit := v.upLimit
  threshold := v.threshold
  rowIndex := v.rowIndex

/-- The settings that `setup` would load. -/
def stored (v : Store) : Settings where
  duration := word v.flash 100
  downLimit := cell v.flash 102
  upLimit := cell v.flash 103
  threshold := word v.flash 104
  rowIndex := cell v.flash 106

def write (v : Store) (a : Nat) (b : UInt8) : Store :=
  { v with rom := fun j => if j = a then b else v.rom j }

def commit (v : Store) : Store := { v with flash := v.rom }

@[simp] theorem write_rom (v : Store) (a : Nat) (b : UInt8) (j : Nat) :
    (v.write a b).rom j = if j = a then b else v.rom j := rfl
@[simp] theorem write_flash (v : Store) (a : Nat) (b : UInt8) : (v.write a b).flash = v.flash := rfl
@[simp] theorem commit_rom (v : Store) : v.commit.rom = v.rom := rfl
@[simp] theorem commit_flash (v : Store) : v.commit.flash = v.rom := rfl

/-- What `setup` loads. -/
def load (v : Store) : Store where
  rom := v.flash
  flash := v.flash
  downLimit := cell v.flash 102
  upLimit := cell v.flash 103
  threshold := word v.flash 104
  rowIndex := cell v.flash 106

def writeWord (v : Store) (a : Nat) (n : UInt16) : Store :=
  ((v.write a (byte (n.toNat / 256))).write (a + 1) (byte (n.toNat % 256))).commit

/-- The cells of the image are those of the flash, cell 105 apart. -/
def Same (v : Store) : Prop := ∀ a ∈ [100, 101, 102, 103, 104, 106], v.rom a = v.flash a

/-- What the code of an operation does. -/
def after (v : Store) : Op → Store
  | .V11 => { v with rowIndex := 1 }.write 105 (byte 1)
  | .V30 n => v.writeWord 100 n
  | .V32 n => let v := (v.write 102 n).commit; { v with downLimit := cell v.rom 102 }
  | .V33 n => let v := (v.write 103 n).commit; { v with upLimit := cell v.rom 103 }
  | .V34 n => let v := v.writeWord 104 n; { v with threshold := word v.rom 104 }
  | .updateToTable =>
    let n := (if 21 ≤ v.rowIndex then 1 else v.rowIndex) + 1
    ({ v with rowIndex := n }.write 106 (byte n)).commit
  | .reset => v.load

end Store

/-- What an operation has to find: clearing the table does not reach cell 106 but overwrites
cell 105, and the next commit of another setting stores what it has left there. -/
def Op.Meets (v : Store) : Op → Prop
  | .V11 => v.flash 106 = 1
  | .V34 _ | .reset => True
  | _ => v.rom 105 = v.flash 105

instance (v : Store) (op : Op) : Decidable (op.Meets v) := by
  cases op <;> unfold Op.Meets <;> infer_instance

/-- The app writes a setting or clears the table. -/
def AppWrite.stores (w : AppWrite) : Bool :=
  match w.pin with
  | .V1 | .V21 | .V22 => false
  | _ => true

/-- No setting arrives. -/
def calm (i : Env) : Prop := ∀ w ∈ i.app, w.stores = false

/-- The operations come one after the other: during the run of one no other arrives. -/
def Calm (xs : Run) : Prop := ∀ i, .run i ∈ xs → calm i

namespace Settings

variable (P : Platform) {A Q : Store → Prop} {v : Store}

/-- The store is `v`. -/
def Holds (v w : Store) : Prop := w = v

theorem store_react (r : Outside) (s : State) : (react r s).store = s.store := by
  cases r with
  | wait ms => rfl
  | button spin =>
    obtain ⟨last, c, x, hs, -, -⟩ := press_spec spin s
    simp only [react]
    split
    · rw [hs]
      rfl
    · rfl

/-- Code without polls that leaves the store alone. -/
abbrev Dull (K : Sketch → Prop) (c : Sketch) : Prop := Made (fun s t : State => t.store = s.store) K c

theorem dull_delay {K : Sketch → Prop} (ms : Nat) : Dull K (delay ms) := fun _ _ _ => rfl

theorem dull_reply {K : Sketch → Prop} (pin : Nat) (l : List Value) : Dull K (reply pin l) := by
  intro i s
  dsimp only
  split <;> rfl

theorem dull_handleApp {w : AppWrite} (hw : w.stores = false) :
    Dull (fun _ => False) (handleApp P (some w)) := by
  obtain ⟨pin, param⟩ := w
  refine ⟨fun _ _ => rfl, ?_⟩
  cases pin with
  | V1 =>
    exact ⟨⟨dull_delay _, dull_reply _ _, dull_delay _, dull_reply _ _, dull_delay _, fun _ _ => rfl,
      trivial⟩, dull_delay _, dull_reply _ _, dull_delay _, dull_reply _ _, dull_delay _,
      fun _ _ => rfl, trivial⟩
  | V21 => exact ⟨dull_delay _, fun _ _ => rfl, dull_delay _, trivial⟩
  | V22 => exact ⟨dull_delay _, fun _ _ => rfl, dull_delay _, trivial⟩
  | _ => simp [AppWrite.stores] at hw

theorem leads_blynkRun : (fed calm Q).Leads State.store A (blynkRun P) A := by
  refine Triple.poll (D := fun i s => calm i ∧ A s.store) (stable fun _ _ => trivial) ?_ ?_
    fun _ hs => hs
  · intro i k s hs hm hi
    exact ⟨hm (handleApp P i.app :: blynkRun P :: k) s (by simp [Code.step, hi, blynkRun]), hs⟩
  · intro i hi
    obtain ⟨w, hw⟩ := Option.isSome_iff_exists.1 hi
    by_cases hc : calm i
    · have hd : (fed calm Q).Leads State.store A (handleApp P i.app) A := by
        rw [hw]
        exact Leads.idle (K := fun _ => False) (fun _ _ => trivial) (fun _ h => h.elim)
          (dull_handleApp P (hc w hw))
      exact hd.pre ⟨fun _ _ => trivial, fun s t hs hst => ⟨hs.1, (stable fun _ _ => trivial).rely s t hs.2 hst⟩⟩
        fun _ hs => hs.2
    · exact Triple.absurd.pre ⟨fun _ _ => trivial, fun _ _ hs _ => absurd hs.1 hc⟩
        fun _ hs => hc hs.1

/-- Code whose polls are those of the app. -/
abbrev DullApp (c : Sketch) : Prop := Dull (· = blynkRun P) c

theorem leads_dull {c : Sketch} (hc : DullApp P c) : (fed calm Q).Leads State.store A c A :=
  Leads.idle (fun _ _ => trivial) (by rintro _ rfl; exact leads_blynkRun P) hc

theorem dull_send (e : State → Event) : DullApp P (send P e) := by
  refine ⟨rfl, fun i s => ?_⟩
  dsimp only
  split <;> rfl

theorem dull_testWiFi (n : Nat) : DullApp P (testWiFi (setupOnline P) setupOffline n) := by
  have hblink : DullApp P (.block [setLed false, delay 20, setLed true, delay 20]) :=
    ⟨fun _ _ => rfl, dull_delay _, fun _ _ => rfl, dull_delay _, trivial⟩
  induction n with
  | zero => exact ⟨fun _ _ => rfl, fun _ _ => rfl, dull_delay _, trivial⟩
  | succ n ih =>
    exact ⟨⟨fun _ _ => rfl, dull_delay _, fun _ _ => rfl, dull_delay _, made_times hblink 7, rfl,
      dull_delay _, fun _ _ => rfl, dull_delay _, trivial⟩, dull_delay _, ih⟩

/-- A statement as a function on the store. -/
theorem leads_set {e : Env → Prop} {f : State → State} {g : Store → Store}
    (h : ∀ s, (f s).store = g s.store) :
    (fed e Q).Leads State.store (Holds v) (.set f) (Holds (g v)) :=
  Leads.step (fun _ _ => trivial) fun _ s hs _ => ⟨trivial, (h s).trans (congrArg g hs)⟩

/-- A C conversion of a number that is not negative is its floor. -/
theorem trunc_eq_floor {q : Rat} (hq : 0 ≤ q) : trunc q = ⌊q⌋ := by
  rw [trunc, Int.tdiv_eq_ediv_of_nonneg (Rat.num_nonneg.2 hq), Rat.floor_def']

theorem floatToByte_eq {q : Rat} (hq : 0 ≤ q) (h : ⌊q⌋ < 256) : P.floatToByte q = byte ⌊q⌋ := by
  rw [Platform.floatToByte, trunc_eq_floor hq, if_pos ⟨Int.floor_nonneg.2 hq, h⟩]

theorem floatToByte_high (n : UInt16) :
    P.floatToByte (((n.toNat : Int) : Rat) / 256) = byte (n.toNat / 256) := by
  have hf : ⌊((n.toNat : Int) : Rat) / (256 : Nat)⌋ = (n.toNat : Int) / 256 :=
    Rat.floor_intCast_div_natCast _ _
  have hn := n.toNat_lt
  simp only [Nat.cast_ofNat] at hf
  rw [floatToByte_eq P (by positivity) (by omega), hf]

theorem byte_toNat (n : UInt8) : byte n.toNat = n := by
  have hn := n.toNat_lt
  have h : ((n.toNat : Int) % 256).toNat = n.toNat := by omega
  rw [byte, h, UInt8.ofNat_toNat]

theorem floatToByte_low (n : UInt8) : P.floatToByte ((n.toNat : Int) : Rat) = n := by
  have hn := n.toNat_lt
  rw [floatToByte_eq P (by positivity) (by rw [Int.floor_intCast]; omega), Int.floor_intCast,
    byte_toNat]

theorem store_write {a : Nat} (ha : a < 512) (b : UInt8) (s : State) :
    (s.write a b).store = s.store.write a b := by
  simp [State.write, State.store, Store.write, ha]

theorem leads_delay {f : Env → Prop} (ms : Nat) : (fed f Q).Leads State.store A (delay ms) A :=
  Leads.idle (K := fun _ => False) (fun _ _ => trivial) (fun _ h => h.elim) (dull_delay ms)

theorem leads_writeWord {f : Env → Prop} {a : Nat} (ha : a + 1 < 512) (n : Int) :
    (fed f Q).Leads State.store (Holds v) (Center.writeWord P a (a + 1) (.ofInt n))
      (Holds ((v.write a (P.floatToByte ((n : Rat) / 256))).write (a + 1)
        (byte ((Param.ofInt n).asInt.tmod 256))).commit) :=
  .seq (leads_delay _) (.seq (leads_set (g := fun v => v.write a _) fun s => store_write (by omega) _ s)
    (.seq (leads_set (g := fun v => v.write (a + 1) _) fun s => store_write ha _ s)
    (.seq (leads_set (g := Store.commit) fun _ => rfl) (Leads.done fun _ _ => trivial))))

/-- The two bytes of a number that fits. -/
theorem writeWord_eq (a : Nat) (n : UInt16) :
    ((v.write a (P.floatToByte (((n.toNat : Int) : Rat) / 256))).write (a + 1)
      (byte ((Param.ofInt n.toNat).asInt.tmod 256))).commit = v.writeWord a n := by
  have h0 : 0 ≤ (n.toNat : Int) := Int.natCast_nonneg n.toNat
  have hn := n.toNat_lt
  rw [floatToByte_high, asInt_ofInt h0 (by omega), Int.tmod_eq_emod_of_nonneg h0]
  rfl

theorem leads_handleApp {w : AppWrite} {u : Store}
    (h : (fed calm Q).Leads State.store (Holds v) (blynkWrite P w) (Holds u)) :
    (fed calm Q).Leads State.store (Holds v) (handleApp P (some w)) (Holds u) :=
  .seq (leads_dull P fun _ _ => rfl) h

theorem leads_V11 :
    (fed calm Q).Leads State.store (Holds v) (Op.V11.code P) (Holds (v.after .V11)) := by
  have hset : ∀ s : State, (s.write 105 (byte s.rowIndex)).store =
      s.store.write 105 (byte s.store.rowIndex) := fun s => store_write (by decide) _ s
  refine leads_handleApp P (Leads.when (T := Holds v) (fun _ _ => trivial) (fun _ _ hs _ => hs)
    (fun _ _ _ h => by simp [Param.ofInt] at h) ?_)
  refine .seq (leads_set (g := fun v => { v with rowIndex := 1 }) fun _ => rfl)
    (.seq (leads_set (g := fun v => v.write 105 (byte v.rowIndex)) hset) (leads_dull P ?_))
  exact ⟨dull_delay _, dull_reply _ _, dull_delay _, trivial⟩

/-- A one-byte setting: the cell is written and committed, and then read back. -/
theorem leads_byte {e : Env → Prop} {a : Nat} (ha : a < 512) (n : Int) {f : State → State}
    {g : Store → Store} (hf : ∀ s, (f s).store = g s.store) :
    (fed e Q).Leads State.store (Holds v)
      (.block [delay 10, .set fun s => s.write a (P.floatToByte (Param.ofInt n).asFloat),
        .set State.commit, delay 10, .set f, delay 10])
      (Holds (g (v.write a (P.floatToByte n)).commit)) :=
  .seq (leads_delay _) (.seq (leads_set (g := fun v => v.write a _) fun s => store_write ha _ s)
    (.seq (leads_set (g := Store.commit) fun _ => rfl) (.seq (leads_delay _)
    (.seq (leads_set hf) (.seq (leads_delay _) (Leads.done fun _ _ => trivial))))))

theorem leads_updateToTable : (fed calm Q).Leads State.store (Holds v) (Center.updateToTable P)
    (Holds (v.after .updateToTable)) := by
  have hset : ∀ s : State, (s.write 106 (byte s.rowIndex)).store =
      s.store.write 106 (byte s.store.rowIndex) := fun s => store_write (by decide) _ s
  refine .seq (R := fun s => Holds { v with rowIndex := if 21 ≤ v.rowIndex then 1 else v.rowIndex }
    s.store) ?_ (.seq (leads_dull P (dull_delay _)) (.seq (leads_dull P fun _ => dull_send P _)
    (.seq (leads_dull P (dull_delay _)) (.seq (leads_dull P fun _ => dull_send P _)
    (.seq (leads_dull P (dull_delay _)) ?_)))))
  · refine Leads.when (T := fun w => Holds v w ∧ 21 ≤ v.rowIndex) (fun _ _ => trivial) ?_ ?_ ?_
    · intro i s hs h
      have h : 21 ≤ s.store.rowIndex := of_decide_eq_true h
      exact ⟨hs, by rwa [show s.store = v from hs] at h⟩
    · intro i s hs h
      have h : ¬ 21 ≤ s.store.rowIndex := of_decide_eq_false h
      rw [show s.store = v from hs] at h ⊢
      simp [Holds, h]
    · refine Leads.step (fun _ _ => trivial) fun _ s hs _ => ⟨trivial, ?_⟩
      obtain ⟨hs, h⟩ := hs
      simp only [h, if_true]
      exact congrArg (fun v : Store => { v with rowIndex := 1 }) hs
  · exact .seq (leads_set (g := fun v => { v with rowIndex := v.rowIndex + 1 }) fun _ => rfl)
      (.seq (leads_set (g := fun v => v.write 106 (byte v.rowIndex)) hset)
      (.seq (leads_set (g := Store.commit) fun _ => rfl) (Leads.done fun _ _ => trivial)))

theorem leads_setup : (fed calm Q).Leads State.store (Holds v) (setup P) (Holds v.load) := by
  refine .seq (leads_set (g := fun v => { v with rom := v.flash }) fun _ => rfl)
    (.seq (leads_dull P fun _ _ => rfl) (.seq (leads_dull P fun _ _ => rfl)
    (.seq (leads_set (g := fun v => { v with downLimit := cell v.rom 102 }) fun _ => rfl)
    (.seq (leads_set (g := fun v => { v with upLimit := cell v.rom 103 }) fun _ => rfl)
    (.seq (leads_set (g := fun v => { v with threshold := word v.rom 104 }) fun _ => rfl) ?_)))))
  refine .seq (leads_dull P ⟨trivial, trivial⟩) (.seq (leads_dull P (dull_delay _))
    (.seq (leads_dull P fun _ _ => rfl) (.seq (leads_dull P (dull_delay _))
    (.seq (leads_dull P (dull_testWiFi P 20)) (.seq (leads_dull P (dull_delay _))
    (.seq (leads_set (g := fun v => { v with rowIndex := cell v.rom 106 }) fun _ => rfl) ?_))))))
  exact leads_dull P ⟨fun _ _ => rfl, dull_delay _, dull_send P _, dull_delay _, dull_send P _,
    dull_delay _, fun _ _ => rfl, fun _ _ => rfl, fun _ _ => rfl, trivial⟩

/-- The code of an operation does to the store what `Store.after` says. -/
theorem leads_op (op : Op) (hop : op ≠ .reset) :
    (fed calm Q).Leads State.store (Holds v) (op.code P) (Holds (v.after op)) := by
  cases op with
  | V11 => exact leads_V11 P
  | V30 n =>
    have h := leads_writeWord P (a := 100) (v := v) (Q := Q) (f := calm) (by decide) n.toNat
    rw [writeWord_eq] at h
    exact leads_handleApp P (.seq h (leads_dull P ⟨dull_delay _, trivial⟩))
  | V32 n =>
    have h := leads_byte P (a := 102) (v := v) (Q := Q) (e := calm) (by decide) n.toNat
      (f := fun s => { s with downLimit := s.read 102 })
      (g := fun v => { v with downLimit := cell v.rom 102 }) fun _ => rfl
    rw [floatToByte_low] at h
    exact leads_handleApp P h
  | V33 n =>
    have h := leads_byte P (a := 103) (v := v) (Q := Q) (e := calm) (by decide) n.toNat
      (f := fun s => { s with upLimit := s.read 103 })
      (g := fun v => { v with upLimit := cell v.rom 103 }) fun _ => rfl
    rw [floatToByte_low] at h
    exact leads_handleApp P h
  | V34 n =>
    have h := leads_writeWord P (a := 104) (v := v) (Q := Q) (f := calm) (by decide) n.toNat
    rw [writeWord_eq] at h
    exact leads_handleApp P (.seq h (.seq (leads_dull P (dull_delay _)) (.seq (leads_set
      (g := fun v => { v with threshold := word v.rom 104 }) fun _ => rfl)
      (leads_dull P ⟨dull_delay _, trivial⟩))))
  | updateToTable => exact leads_updateToTable P
  | reset => exact absurd rfl hop

theorem cell_byte {n : Int} (h0 : 0 ≤ n) (h : n < 256) : ((byte n).toNat : Int) = n := by
  have h1 : (n % 256).toNat = n.toNat := by omega
  rw [byte, h1, UInt8.toNat_ofNat']
  omega

/-- The two bytes of a word. -/
theorem byte_word (n : UInt16) :
    ((byte (n.toNat / 256)).toNat : Int) * 256 + ((byte (n.toNat % 256)).toNat : Int) = n.toNat := by
  have hn := n.toNat_lt
  rw [cell_byte (by omega) (by omega), cell_byte (by omega) (by omega)]
  omega

theorem word_writeWord (v : Store) (a : Nat) (n : UInt16) :
    word (v.writeWord a n).rom a = n.toNat := by
  simp [word, cell, Store.writeWord, byte_word]

theorem same_after {v : Store} (h : v.Same) (op : Op) : (v.after op).Same := by
  cases op <;> simp_all [Store.Same, Store.after, Store.writeWord, Store.load, Store.commit, Store.write]

/-- The next row fits into its cell. -/
theorem cell_row {v : Store} {a : Settings} (hr : v.ram = a) (hf : v.stored = a) {n : Int}
    (hn : n = (if 21 ≤ v.rowIndex then 1 else v.rowIndex) + 1) : ((byte n).toNat : Int) = n := by
  have h : v.rowIndex = cell v.flash 106 := congrArg Settings.rowIndex (hr.trans hf.symm)
  have h0 : 0 ≤ v.rowIndex := by
    rw [h]
    exact Int.natCast_nonneg _
  refine cell_byte ?_ ?_ <;> split at hn <;> omega

/-- The globals always follow. -/
theorem ram_after {v : Store} {a : Settings} (hr : v.ram = a) (hf : v.stored = a) (op : Op) :
    (v.after op).ram = op.apply a := by
  cases op with
  | reset => exact hf
  | V11 =>
    subst hr
    simp [Store.ram, Store.after, Op.apply, Store.write, word, cell]
  | V30 n =>
    subst hr
    simp only [Store.ram, Store.after, Op.apply, word_writeWord]
    rfl
  | V32 n =>
    subst hr
    simp [Store.ram, Store.after, Op.apply, Store.write, Store.commit, word, cell]
  | V33 n =>
    subst hr
    simp [Store.ram, Store.after, Op.apply, Store.write, Store.commit, word, cell]
  | V34 n =>
    subst hr
    have h : word (v.writeWord 104 n).rom 100 = word v.rom 100 := by
      simp [Store.writeWord, word, cell]
    simp only [Store.ram, Store.after, Op.apply, word_writeWord, h]
    rfl
  | updateToTable =>
    subst hr
    simp [Store.ram, Store.after, Op.apply, Store.write, Store.commit, word, cell]
    rfl

/-- What `setup` would load follows exactly when the operation finds what it has to. -/
theorem stored_after_iff {v : Store} {a : Settings} (hs : v.Same) (hr : v.ram = a)
    (hf : v.stored = a) (op : Op) : (v.after op).stored = op.apply a ↔ op.Meets v := by
  subst hf
  simp only [Store.Same, List.mem_cons, List.not_mem_nil, or_false, forall_eq_or_imp,
    forall_eq] at hs
  obtain ⟨h100, h101, h102, h103, h104, h106⟩ := hs
  cases op with
  | reset => exact iff_true_intro rfl
  | V11 =>
    have h1 : ((v.flash 106).toNat : Int) = 1 ↔ v.flash 106 = 1 := by
      rw [← UInt8.toNat_inj]
      exact Int.ofNat_inj
    change _ ↔ v.flash 106 = 1
    simpa only [Store.stored, Store.after, Store.write_flash, cell, Op.apply, mk.injEq, true_and] using h1
  | V30 n =>
    change _ ↔ v.rom 105 = v.flash 105
    simp only [Store.stored, word, cell, Store.after, Store.writeWord, Nat.reduceAdd, Store.commit_flash,
      Store.write_rom, Nat.reduceEqDiff, ↓reduceIte, byte_word, h102, h103, h104, h106, Op.apply,
      mk.injEq, Int.add_right_inj, Int.natCast_inj, UInt8.toNat_inj, and_true, true_and]
  | V32 n =>
    change _ ↔ v.rom 105 = v.flash 105
    simp only [Store.stored, word, cell, Store.after, Store.commit_rom, Store.commit_flash, Store.write_rom,
      ↓reduceIte, Nat.reduceEqDiff, h100, Nat.reduceAdd, h101, h103, h104, h106, Op.apply, mk.injEq,
      Int.add_right_inj, Int.natCast_inj, UInt8.toNat_inj, and_true, true_and]
  | V33 n =>
    change _ ↔ v.rom 105 = v.flash 105
    simp only [Store.stored, word, cell, Store.after, Store.commit_rom, Store.commit_flash, Store.write_rom,
      ↓reduceIte, Nat.reduceEqDiff, h100, Nat.reduceAdd, h101, h102, h104, h106, Op.apply, mk.injEq,
      Int.add_right_inj, Int.natCast_inj, UInt8.toNat_inj, and_true, true_and]
  | V34 n =>
    change _ ↔ True
    simp only [Store.stored, word, cell, Store.after, Store.writeWord, Nat.reduceAdd, Store.commit_rom,
      Store.commit_flash, Store.write_rom, Nat.reduceEqDiff, ↓reduceIte, byte_word, h100, h101, h102, h103,
      h106, Op.apply]
  | updateToTable =>
    change _ ↔ v.rom 105 = v.flash 105
    have hrow : ((v.flash 106).toNat : Int) = v.rowIndex := congrArg Settings.rowIndex hr.symm
    have hn := cell_row hr rfl rfl
    simp only [Store.stored, word, cell, Store.after, Store.commit_flash, Store.write_rom, Nat.reduceEqDiff,
      ↓reduceIte, h100, Nat.reduceAdd, h101, h102, h103, h104, hn, Op.apply, hrow, mk.injEq,
      Int.add_right_inj, Int.natCast_inj, UInt8.toNat_inj, and_true, true_and]

end Settings

/-- An operation, run to its end with the choices `xs`. -/
def Op.run (P : Platform) (op : Op) (xs : Run) (s : State) : Option State :=
  finish react xs [op.code P] (op.enter s)

/-- Both copies of the settings are what the operations so far mean. -/
def Refines (P : Platform) : List (Op × Run) → Settings → State → Prop
  | [], a, s => s.store.ram = a ∧ s.store.stored = a
  | (op, xs) :: ops, a, s => (s.store.ram = a ∧ s.store.stored = a) ∧
    ∀ t ∈ op.run P xs s, Refines P ops (op.apply a) t

/-- Every operation finds what it has to. -/
def Guarded (P : Platform) : List (Op × Run) → State → Prop
  | [], _ => True
  | (op, xs) :: ops, s => ∀ t ∈ op.run P xs s, op.Meets s.store ∧ Guarded P ops t

instance decidableGuarded (P : Platform) :
    (ops : List (Op × Run)) → (s : State) → Decidable (Guarded P ops s)
  | [], _ => .isTrue trivial
  | (op, xs) :: ops, s =>
    have := decidableGuarded P ops
    inferInstanceAs (Decidable (∀ t ∈ op.run P xs s, op.Meets s.store ∧ Guarded P ops t))

namespace Settings

variable {P : Platform} {s t : State}

theorem store_run {op : Op} {xs : Run} (hx : Calm xs) (h : op.run P xs s = some t) :
    t.store = s.store.after op := by
  by_cases hop : op = .reset
  · subst hop
    exact Leads.finish_fed store_react (leads_setup P (v := (restart s).store)) hx rfl h
  · have he : op.enter s = s := by cases op <;> first | rfl | exact absurd rfl hop
    rw [Op.run, he] at h
    exact Leads.finish_fed store_react (leads_op P (v := s.store) op hop) hx rfl h

/-- From a state in which both copies agree. -/
theorem refines_iff {ops : List (Op × Run)} {a : Settings} (hx : ∀ p ∈ ops, Calm p.2)
    (hs : s.store.Same) (hr : s.store.ram = a) (hf : s.store.stored = a) :
    Refines P ops a s ↔ Guarded P ops s := by
  induction ops generalizing s a with
  | nil => simp [Refines, Guarded, hr, hf]
  | cons p ops ih =>
    obtain ⟨op, xs⟩ := p
    simp only [Refines, Guarded, hr, hf, and_self, true_and]
    refine forall₂_congr fun t ht => ?_
    have hst : t.store = s.store.after op := store_run (hx (op, xs) (by simp)) ht
    have hram : t.store.ram = op.apply a := by rw [hst, ram_after hr hf]
    have hsame : t.store.Same := by
      rw [hst]
      exact same_after hs op
    have hiff := stored_after_iff hs hr hf op
    rw [← hst] at hiff
    have hih := fun h => ih (a := op.apply a) (fun q hq => hx q (by simp [hq])) hsame hram h
    constructor
    · intro h
      have hstored : t.store.stored = op.apply a := by
        cases ops with
        | nil => exact h.2
        | cons q ops => exact h.1.2
      exact ⟨hiff.1 hstored, (hih hstored).1 h⟩
    · rintro ⟨hm, hg⟩
      exact (hih (hiff.2 hm)).2 hg

end Settings

/-- From the end of `setup`, any sequence of operations keeps both copies of the settings at what
the operations mean if and only if each clearing of the table finds the row counter stored as 1,
and each commit of another setting finds cell 105 of the image as it is stored. -/
theorem settings_refine_iff (P : Platform) {flash : Nat → UInt8} {xs : Run} {s : State}
    {ops : List (Op × Run)} (hx : Calm xs) (hops : ∀ p ∈ ops, Calm p.2)
    (hs : finish react xs [setup P] (powerOn flash) = some s) :
    Refines P ops s.store.stored s ↔ Guarded P ops s := by
  have hst : s.store = (powerOn flash).store.load :=
    Leads.finish_fed Settings.store_react (Settings.leads_setup P) hx rfl hs
  refine Settings.refines_iff hops ?_ ?_ rfl
  · rw [hst]
    exact fun _ _ => rfl
  · rw [hst]
    rfl

theorem calm_idle (n : Nat) : Calm (idle n) := by
  intro i hi w hw
  obtain rfl : i = {} := by simpa using (List.mem_replicate.1 hi).2
  cases hw

/-- A threshold, a row of the table, a duration and a reset. -/
def configured : List (Op × Run) :=
  [(.V34 300, idle 22), (.updateToTable, idle 29), (.V30 400, idle 17), (.reset, idle 163)]

set_option maxRecDepth 10000 in
theorem settings_refine_configured :
    ∃ s, finish react (idle 163) [setup bench] (powerOn (flashOf 5)) = some s ∧
      Refines bench configured s.store.stored s := by
  have hf : (finish react (idle 163) [setup bench] (powerOn (flashOf 5))).map
      (fun s => decide (Guarded bench configured s)) = some true := by
    decide +kernel
  obtain ⟨s, hs, hg⟩ := Option.map_eq_some_iff.1 hf
  refine ⟨s, hs, (settings_refine_iff bench (calm_idle 163) ?_ hs).2 (of_decide_eq_true hg)⟩
  simp [configured, calm_idle]

set_option maxRecDepth 10000 in
/-- A cleared table is back at its row after a reset. -/
theorem clearing_can_be_lost : ¬ ∀ (P : Platform) (flash : Nat → UInt8) (xs : Run) (s : State)
    (ops : List (Op × Run)), Calm xs → (∀ p ∈ ops, Calm p.2) →
    finish react xs [setup P] (powerOn flash) = some s → Refines P ops s.store.stored s := by
  intro h
  have hf : ((finish react (idle 163) [setup bench] (powerOn fun a => if a = 106 then 5 else 0)).bind
      fun s => (Op.run bench .V11 (idle 16) s).map fun t =>
        (s.store.stored.rowIndex, t.store.stored.rowIndex)) = some (5, 5) := by
    decide +kernel
  obtain ⟨s, hs, hf⟩ := Option.bind_eq_some_iff.1 hf
  obtain ⟨t, ht, hrow⟩ := Option.map_eq_some_iff.1 hf
  have hr := h bench _ (idle 163) s [(.V11, idle 16)] (calm_idle 163) (by simp [calm_idle]) hs
  have h1 : t.store.stored.rowIndex = 1 := by
    rw [(hr.2 t ht).2]
    rfl
  simp [h1] at hrow

end Center
