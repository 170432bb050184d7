import TruckLock.CenterWifi
import TruckLock.Chars

/-!
# Nhiet_do_Do_am.c

The sketch of the thermometer copies the credentials that it has given to
`WiFi.begin` into two arrays for `Blynk.begin`. The LED, the serial line, the
delays and the measurements are left out. So is the form, which is that of
Center: it ends in a reset with other contents of the EEPROM.
-/
namespace Thermometer

open Firmware Spec

inductive Event where
  | wifiBegin (ten_wifi mk_wifi : List UInt8)
  | blynkBegin (ten_wifi_blynk mk_wifi_blynk : Option (List UInt8))
  deriving DecidableEq, Repr

structure State where
  flash : Nat → UInt8
  rom : Nat → UInt8 := fun _ => 0
  ten_wifi : List UInt8 := []
  mk_wifi : List UInt8 := []
  ten_wifi_blynk : Chars := .zeros 32
  mk_wifi_blynk : Chars := .zeros 64
  wifiFlash : Bool := false
  log : List Event := []

namespace State

def emit (s : State) (e : Event) : State := { s with log := e :: s.log }

end State

/-- What `WiFi.status()` finds. -/
structure Env where
  wifi : Bool := true
  deriving DecidableEq, Repr

abbrev Sketch := Code State Env

/-- `Blynk.begin(auth, ten_wifi_blynk, mk_wifi_blynk);` -/
def blynkBegin : Sketch :=
  .set fun s => s.emit (.blynkBegin s.ten_wifi_blynk.text s.mk_wifi_blynk.text)

def setupOnline : Sketch := .block [.set fun s => { s with wifiFlash := true }, blynkBegin]

def setupOffline : Sketch := .set fun s => { s with wifiFlash := false }

/-- `testWiFi` in the condition of `setup`, with `n` of its 20 rounds left. -/
def testWiFi : Nat → Sketch
  | 0 => setupOffline
  | n + 1 => .ite (fun i _ => i.wifi) setupOnline (testWiFi n)

def setup : Sketch :=
  .block [
    .set fun s => { s with rom := s.flash },
    .set fun s => { s with ten_wifi := s.ten_wifi ++ (List.range 32).map s.rom },
    .set fun s => { s with mk_wifi := s.mk_wifi ++ (List.range 64).map fun i => s.rom (32 + i) },
    .set fun s => s.emit (.wifiBegin (Center.cString s.ten_wifi) (Center.cString s.mk_wifi)),
    .set fun s => { s with ten_wifi_blynk := s.ten_wifi_blynk.strcpy s.ten_wifi },
    .set fun s => { s with mk_wifi_blynk := s.mk_wifi_blynk.strcpy s.mk_wifi },
    testWiFi 20]

/-- The Wi-Fi is off between two measurements. -/
def loop : Sketch := .when (fun _ s => s.wifiFlash) blynkBegin

/-- The RAM is lost in a reset. -/
def device : Machine State Env Empty where
  boot := .seq setup (.forever loop)
  react r _ := r.elim
  restart s := { flash := s.flash, log := s.log }

def after (flash : Nat → UInt8) (xs : List (Choice Env Empty)) : Config State Env :=
  device.exec xs (device.start { flash := flash })

/-- Blynk is given the texts that the Wi-Fi was given, and every character has gone into its array. -/
structure OneSet (s : State) : Prop where
  ten_wifi_blynk : s.ten_wifi_blynk.outside = []
  mk_wifi_blynk : s.mk_wifi_blynk.outside = []
  same : ∀ a b a' b', .wifiBegin a b ∈ s.log → .blynkBegin a' b' ∈ s.log → a' = some a ∧ b' = some b

/-- The cells 0 to 95 hold the texts of a form. -/
structure Holds (f : Nat → UInt8) (tenWiFi matkhau : List UInt8) : Prop where
  tenWiFi : (List.range 32).map f = (List.range 32).map fun j => (tenWiFi[j]?).getD 0
  matkhau : ((List.range 64).map fun i => f (32 + i)) = (List.range 64).map fun j => (matkhau[j]?).getD 0

theorem holds_form (v : Center.Store) {tenWiFi matkhau : List UInt8} (h : Center.Fits tenWiFi matkhau) :
    Holds (v.form tenWiFi matkhau).rom tenWiFi matkhau where
  tenWiFi := List.map_congr_left fun _ hj => Center.Store.form_tenWiFi v h (List.mem_range.1 hj)
  matkhau := List.map_congr_left fun _ hj => Center.Store.form_matkhau v h (List.mem_range.1 hj)

section

variable {f : Nat → UInt8} {tenWiFi matkhau : List UInt8}

def Event.Hands (tenWiFi matkhau : List UInt8) : Event → Prop
  | .wifiBegin a b => a = tenWiFi ∧ b = matkhau
  | .blynkBegin a b => a = some tenWiFi ∧ b = some matkhau

/-- What holds all along, over resets. -/
structure Kept (f : Nat → UInt8) (tenWiFi matkhau : List UInt8) (s : State) : Prop where
  flash : s.flash = f
  ten_wifi_blynk : s.ten_wifi_blynk.outside = []
  mk_wifi_blynk : s.mk_wifi_blynk.outside = []
  log : ∀ e ∈ s.log, e.Hands tenWiFi matkhau

theorem Kept.oneSet {s : State} (h : Kept f tenWiFi matkhau s) : OneSet s where
  ten_wifi_blynk := h.ten_wifi_blynk
  mk_wifi_blynk := h.mk_wifi_blynk
  same := by
    intro a b a' b' hw hb
    obtain ⟨rfl, rfl⟩ := h.log _ hw
    exact h.log _ hb

theorem Kept.emit {s : State} (h : Kept f tenWiFi matkhau s) {e : Event} (he : e.Hands tenWiFi matkhau) :
    Kept f tenWiFi matkhau (s.emit e) :=
  ⟨h.flash, h.ten_wifi_blynk, h.mk_wifi_blynk, List.forall_mem_cons.2 ⟨he, h.log⟩⟩

def spec (f : Nat → UInt8) (tenWiFi matkhau : List UInt8) : Spec Env State where
  ok _ _ _ := True
  good _ _ := True
  good_refl _ := trivial
  inv := Kept f tenWiFi matkhau
  top _ := True
  fin _ := True

abbrev Turns (f : Nat → UInt8) (tenWiFi matkhau : List UInt8) (A : State → Prop) (c : Sketch)
    (B : State → Prop) : Prop :=
  (spec f tenWiFi matkhau).Leads id (fun s => Kept f tenWiFi matkhau s ∧ A s) c
    fun s => Kept f tenWiFi matkhau s ∧ B s

theorem turns_set {A B : State → Prop} {g : State → State}
    (h : ∀ s, Kept f tenWiFi matkhau s → A s → Kept f tenWiFi matkhau (g s) ∧ B (g s)) :
    Turns f tenWiFi matkhau A (.set g) B :=
  Leads.step (fun _ hs => hs.1) fun _ s hs _ => ⟨trivial, h s hs.1 hs.2⟩

theorem turns_done {A : State → Prop} : Turns f tenWiFi matkhau A .skip A := Leads.done fun _ hs => hs.1

/-- The arrays hold the texts. -/
def Copied (tenWiFi matkhau : List UInt8) (s : State) : Prop :=
  s.ten_wifi_blynk.text = some tenWiFi ∧ s.mk_wifi_blynk.text = some matkhau

theorem turns_blynkBegin :
    Turns f tenWiFi matkhau (Copied tenWiFi matkhau) blynkBegin (Copied tenWiFi matkhau) :=
  turns_set fun _ hs hc => ⟨hs.emit (show Event.Hands _ _ (.blynkBegin _ _) from hc), hc⟩

theorem turns_testWiFi (n : Nat) :
    Turns f tenWiFi matkhau (Copied tenWiFi matkhau) (testWiFi n) (Copied tenWiFi matkhau) := by
  have hset : ∀ b, Turns f tenWiFi matkhau (Copied tenWiFi matkhau)
      (.set fun s => { s with wifiFlash := b }) (Copied tenWiFi matkhau) := fun _ =>
    turns_set fun s hs hc => ⟨⟨hs.flash, hs.ten_wifi_blynk, hs.mk_wifi_blynk, hs.log⟩, hc⟩
  induction n with
  | zero => exact hset false
  | succ n ih =>
    exact Leads.choose (.seq (hset true) (.seq turns_blynkBegin turns_done)) ih

/-- The arrays as they are allocated. -/
def Blank (s : State) : Prop := s.ten_wifi_blynk = .zeros 32 ∧ s.mk_wifi_blynk = .zeros 64

/-- With room for the NUL, `setup` hands the same texts to both. -/
theorem turns_setup (h1 : 0 ∉ tenWiFi) (h2 : 0 ∉ matkhau) (hf : Holds f tenWiFi matkhau)
    (ht : tenWiFi.length ≤ 31) (hm : matkhau.length ≤ 63) :
    Turns f tenWiFi matkhau (fun s => s.ten_wifi = [] ∧ s.mk_wifi = [] ∧ Blank s) setup
      (Copied tenWiFi matkhau) := by
  have hten : Center.cString ((List.range 32).map f) = tenWiFi := by
    rw [hf.tenWiFi]
    exact Center.cString_field (by omega) h1
  have hmk : Center.cString ((List.range 64).map fun i => f (32 + i)) = matkhau := by
    rw [hf.matkhau]
    exact Center.cString_field (by omega) h2
  have hload : Turns f tenWiFi matkhau (fun s => s.ten_wifi = [] ∧ s.mk_wifi = [] ∧ Blank s)
      (.set fun s => { s with rom := s.flash })
      fun s => s.rom = f ∧ s.ten_wifi = [] ∧ s.mk_wifi = [] ∧ Blank s :=
    turns_set fun s hs he => ⟨⟨hs.flash, hs.ten_wifi_blynk, hs.mk_wifi_blynk, hs.log⟩, hs.flash, he⟩
  have hreadTen : Turns f tenWiFi matkhau
      (fun s => s.rom = f ∧ s.ten_wifi = [] ∧ s.mk_wifi = [] ∧ Blank s)
      (.set fun s => { s with ten_wifi := s.ten_wifi ++ (List.range 32).map s.rom })
      fun s => s.rom = f ∧ Center.cString s.ten_wifi = tenWiFi ∧ s.mk_wifi = [] ∧ Blank s := by
    refine turns_set fun s hs he => ⟨⟨hs.flash, hs.ten_wifi_blynk, hs.mk_wifi_blynk, hs.log⟩, he.1, ?_, he.2.2⟩
    show Center.cString (s.ten_wifi ++ (List.range 32).map s.rom) = tenWiFi
    rw [he.1, he.2.1, List.nil_append, hten]
  have hreadMk : Turns f tenWiFi matkhau
      (fun s => s.rom = f ∧ Center.cString s.ten_wifi = tenWiFi ∧ s.mk_wifi = [] ∧ Blank s)
      (.set fun s => { s with mk_wifi := s.mk_wifi ++ (List.range 64).map fun i => s.rom (32 + i) })
      fun s => Center.cString s.ten_wifi = tenWiFi ∧ Center.cString s.mk_wifi = matkhau ∧ Blank s := by
    refine turns_set fun s hs he => ⟨⟨hs.flash, hs.ten_wifi_blynk, hs.mk_wifi_blynk, hs.log⟩, he.2.1, ?_, he.2.2.2⟩
    show Center.cString (s.mk_wifi ++ (List.range 64).map fun i => s.rom (32 + i)) = matkhau
    rw [he.1, he.2.2.1, List.nil_append, hmk]
  have hbegin : Turns f tenWiFi matkhau
      (fun s => Center.cString s.ten_wifi = tenWiFi ∧ Center.cString s.mk_wifi = matkhau ∧ Blank s)
      (.set fun s => s.emit (.wifiBegin (Center.cString s.ten_wifi) (Center.cString s.mk_wifi)))
      fun s => Center.cString s.ten_wifi = tenWiFi ∧ Center.cString s.mk_wifi = matkhau ∧ Blank s :=
    turns_set fun s hs he => ⟨hs.emit ⟨he.1, he.2.1⟩, he⟩
  have hcopyTen : Turns f tenWiFi matkhau
      (fun s => Center.cString s.ten_wifi = tenWiFi ∧ Center.cString s.mk_wifi = matkhau ∧ Blank s)
      (.set fun s => { s with ten_wifi_blynk := s.ten_wifi_blynk.strcpy s.ten_wifi })
      fun s => s.ten_wifi_blynk.text = some tenWiFi ∧ Center.cString s.mk_wifi = matkhau ∧
        s.mk_wifi_blynk = .zeros 64 := by
    refine turns_set fun s hs he => ?_
    have hroom : (s.ten_wifi.takeWhile (· ≠ 0)).length < s.ten_wifi_blynk.bytes.length := by
      rw [show s.ten_wifi.takeWhile (· ≠ 0) = tenWiFi from he.1, he.2.2.1]
      exact Nat.lt_of_le_of_lt ht (by decide)
    refine ⟨⟨hs.flash, (Chars.strcpy_inside hs.ten_wifi_blynk).2 hroom, hs.mk_wifi_blynk, hs.log⟩, ?_,
      he.2.1, he.2.2.2⟩
    exact (Chars.text_strcpy hroom).trans (congrArg some he.1)
  have hcopyMk : Turns f tenWiFi matkhau
      (fun s => s.ten_wifi_blynk.text = some tenWiFi ∧ Center.cString s.mk_wifi = matkhau ∧
        s.mk_wifi_blynk = .zeros 64)
      (.set fun s => { s with mk_wifi_blynk := s.mk_wifi_blynk.strcpy s.mk_wifi })
      (Copied tenWiFi matkhau) := by
    refine turns_set fun s hs he => ?_
    have hroom : (s.mk_wifi.takeWhile (· ≠ 0)).length < s.mk_wifi_blynk.bytes.length := by
      rw [show s.mk_wifi.takeWhile (· ≠ 0) = matkhau from he.2.1, he.2.2]
      exact Nat.lt_of_le_of_lt hm (by decide)
    refine ⟨⟨hs.flash, hs.ten_wifi_blynk, (Chars.strcpy_inside hs.mk_wifi_blynk).2 hroom, hs.log⟩, he.1, ?_⟩
    exact (Chars.text_strcpy hroom).trans (congrArg some he.2.1)
  exact .seq hload (.seq hreadTen (.seq hreadMk (.seq hbegin (.seq hcopyTen (.seq hcopyMk
    (.seq (turns_testWiFi 20) turns_done))))))

/-- A text of 32 characters leaves no room for the NUL. -/
theorem copied_outside (hf : Holds f tenWiFi matkhau) (h1 : 0 ∉ tenWiFi) (ht : tenWiFi.length = 32) :
    (after f (List.replicate 12 (.run {}))).state.ten_wifi_blynk.outside ≠ [] := by
  have hten : Center.cString ((List.range 32).map f) = tenWiFi := by
    rw [hf.tenWiFi]
    exact Center.cString_field (by omega) h1
  have hend : (after f (List.replicate 12 (.run {}))).state.ten_wifi_blynk =
      (Chars.zeros 32).strcpy ((List.range 32).map f) := rfl
  rw [hend, Ne, Chars.strcpy_inside rfl, show List.takeWhile _ _ = tenWiFi from hten, ht]
  decide

/-- In the sketch of the thermometer the credentials are one set exactly up to 31 characters. -/
theorem one_set_of_length (h1 : 0 ∉ tenWiFi) (h2 : 0 ∉ matkhau) (hf : Holds f tenWiFi matkhau)
    (ht : tenWiFi.length ≤ 32) (hm : matkhau.length ≤ 63) :
    (∀ xs, OneSet (after f xs).state) ↔ tenWiFi.length ≤ 31 := by
  constructor
  · intro h
    by_contra hn
    exact copied_outside hf h1 (by omega) (h _).ten_wifi_blynk
  · intro hl xs
    let C := (spec f tenWiFi matkhau).on (id : State → State)
    let A := fun s => Kept f tenWiFi matkhau s ∧ s.ten_wifi = [] ∧ s.mk_wifi = [] ∧ Blank s
    have hloop : Turns f tenWiFi matkhau (Copied tenWiFi matkhau) loop (Copied tenWiFi matkhau) :=
      Leads.choose turns_blynkBegin turns_done
    have hboot : Triple C A device.boot fun _ => False :=
      .seq (turns_setup h1 h2 hf hl hm) (.forever (fun _ _ => trivial) hloop)
    have hstart : ∀ s, Kept f tenWiFi matkhau s → A (device.restart s) := fun s hs =>
      ⟨⟨hs.flash, rfl, rfl, hs.log⟩, rfl, rfl, rfl, rfl⟩
    have hpower : A { flash := f } := ⟨⟨rfl, rfl, rfl, by simp⟩, rfl, rfl, rfl, rfl⟩
    have hrun : device.Along (fun x c _ => device.Meet C x c) xs (device.start { flash := f }) := by
      refine (along_iff xs _).2 fun _ x _ _ => ?_
      cases x with
      | run i => exact fun _ _ _ => trivial
      | outside r => exact r.elim
      | reset => trivial
    exact (Machine.always_exec hboot hstart xs _ (Machine.always_start hboot hpower) hrun).inv.oneSet

end

end Thermometer
