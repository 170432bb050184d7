import TruckLock.CenterSettings

/-!
# The Wi-Fi credentials

What becomes of the two texts of the form at `/caidat`: they are copied next
to each other in front of the settings, the device resets, and `setup` decodes
them.
-/
namespace Center

open Firmware Spec

namespace Store

def writeBytes (v : Store) (a : Nat) (l : List UInt8) : Store :=
  (l.zipIdx).foldl (fun v p => v.write (a + p.2) p.1) v

theorem rom_writeBytes (v : Store) (a : Nat) (l : List UInt8) (j : Nat) :
    (v.writeBytes a l).rom j = if a ≤ j then (l[j - a]?).getD (v.rom j) else v.rom j := by
  have h : ∀ (l : List UInt8) (n : Nat) (v : Store),
      ((l.zipIdx n).foldl (fun v p => v.write (a + p.2) p.1) v).rom j =
        if a + n ≤ j then (l[j - (a + n)]?).getD (v.rom j) else v.rom j := by
    intro l
    induction l with
    | nil => intro n v; simp
    | cons b l ih =>
      intro n v
      rw [List.zipIdx_cons, List.foldl_cons, ih]
      simp only [write_rom]
      by_cases hj : j = a + n
      · subst hj
        simp
      · by_cases hle : a + n ≤ j
        · have hs : j - (a + n) = (j - (a + (n + 1))) + 1 := by omega
          rw [if_pos (by omega), if_pos hle, if_neg hj, hs, List.getElem?_cons_succ]
        · rw [if_neg (by omega), if_neg hle, if_neg hj]
  simpa [writeBytes] using h l 0 v

end Store

theorem store_writeBytes (a : Nat) (l : List UInt8) (h : a + l.length ≤ 512) (s : State) :
    (writeBytes a l s).store = s.store.writeBytes a l := by
  have h : ∀ (l : List UInt8) (n : Nat) (s : State), a + n + l.length ≤ 512 →
      ((l.zipIdx n).foldl (fun s p => s.write (a + p.2) p.1) s).store =
        (l.zipIdx n).foldl (fun v p => v.write (a + p.2) p.1) s.store := by
    intro l
    induction l with
    | nil => intros; rfl
    | cons b l ih =>
      intro n s hn
      rw [List.length_cons] at hn
      rw [List.zipIdx_cons, List.foldl_cons, List.foldl_cons, ih _ _ (by omega),
        Settings.store_write (by omega)]
  exact h l 0 s (by omega)

/-- A text in a field of zeros is read back. -/
theorem cString_field {n : Nat} {l : List UInt8} (hl : l.length ≤ n) (h0 : 0 ∉ l) :
    cString ((List.range n).map fun j => (l[j]?).getD 0) = l := by
  induction l generalizing n with
  | nil =>
    cases n with
    | zero => rfl
    | succ n => simp [List.range_succ_eq_map, cString]
  | cons b l ih =>
    cases n with
    | zero => simp at hl
    | succ n =>
      rw [List.mem_cons, not_or] at h0
      have hi := ih (n := n) (by simpa using hl) h0.2
      rw [cString] at hi
      rw [List.range_succ_eq_map, List.map_cons, List.map_map, cString, List.takeWhile_cons_of_pos]
      · simpa [Function.comp_def] using hi
      · simpa using Ne.symm h0.1

/-- The credentials of a form that the EEPROM has room for. -/
structure Fits (tenWiFi matkhau : List UInt8) : Prop where
  tenWiFi : 1 ≤ tenWiFi.length ∧ tenWiFi.length ≤ 32
  matkhau : 1 ≤ matkhau.length ∧ matkhau.length ≤ 64

/-- The store after the loops of `cai_dat`. -/
def Store.form (v : Store) (tenWiFi matkhau : List UInt8) : Store :=
  (((v.writeBytes 0 (List.replicate 96 0)).writeBytes 0 tenWiFi).writeBytes 32 matkhau).commit

namespace Store

variable {tenWiFi matkhau : List UInt8} (v : Store)

theorem form_tenWiFi (h : Fits tenWiFi matkhau) {j : Nat} (hj : j < 32) :
    (v.form tenWiFi matkhau).rom j = (tenWiFi[j]?).getD 0 := by
  have := h.tenWiFi
  simp only [form, commit_rom, rom_writeBytes]
  rw [if_neg (by omega), if_pos (by omega), if_pos (by omega), List.getElem?_replicate,
    if_pos (by omega)]
  simp

theorem form_matkhau (h : Fits tenWiFi matkhau) {j : Nat} (hj : j < 64) :
    (v.form tenWiFi matkhau).rom (32 + j) = (matkhau[j]?).getD 0 := by
  have := h.tenWiFi
  simp only [form, commit_rom, rom_writeBytes]
  rw [if_pos (by omega), if_pos (by omega), if_pos (by omega), List.getElem?_replicate,
    if_pos (by omega), show tenWiFi[32 + j - 0]? = none from List.getElem?_eq_none (by omega)]
  simp

theorem form_rest (h : Fits tenWiFi matkhau) {j : Nat} (hj : 96 ≤ j) :
    (v.form tenWiFi matkhau).rom j = v.rom j := by
  have := h.tenWiFi
  have := h.matkhau
  simp only [form, commit_rom, rom_writeBytes]
  rw [if_pos (by omega), if_pos (by omega), if_pos (by omega), List.getElem?_eq_none (by omega),
    List.getElem?_eq_none (by omega), List.getElem?_eq_none (by simp; omega)]
  rfl

end Store

namespace Wifi

variable {P : Platform} {tenWiFi matkhau : List UInt8}

/-- The part of `cai_dat` before its reset. -/
def stores (tenWiFi matkhau : List UInt8) : Sketch :=
  .when (fun _ _ => 0 < tenWiFi.length && 0 < matkhau.length) <| .block [
    .set (writeBytes 0 (List.replicate 96 0)),
    delay 400,
    .set (writeBytes 0 tenWiFi),
    .set (writeBytes 32 matkhau),
    delay 400,
    .set State.commit,
    delay 200]

theorem lasts_stores : (stores tenWiFi matkhau).Lasts :=
  ⟨⟨trivial, fun _ => trivial, trivial, trivial, fun _ => trivial, trivial, fun _ => trivial, trivial⟩,
    trivial⟩

open Settings in
theorem leads_stores {Q : Store → Prop} (h : Fits tenWiFi matkhau) (v : Store) :
    (call Q).Leads State.store (Holds v) (stores tenWiFi matkhau)
      (Holds (v.form tenWiFi matkhau)) := by
  have ht := h.tenWiFi
  have hm := h.matkhau
  refine Leads.known (b := true) (fun _ _ => trivial) (fun _ _ _ => by simp; omega) ?_
  exact .seq (Settings.leads_set (g := fun v => v.writeBytes 0 (List.replicate 96 0))
      fun s => store_writeBytes 0 _ (by simp) s)
    (.seq (Settings.leads_delay _) (.seq (Settings.leads_set (g := fun v => v.writeBytes 0 tenWiFi)
      fun s => store_writeBytes 0 _ (by omega) s)
    (.seq (Settings.leads_set (g := fun v => v.writeBytes 32 matkhau) fun s => store_writeBytes 32 _ (by omega) s)
    (.seq (Settings.leads_delay _) (.seq (Settings.leads_set (g := Store.commit) fun _ => rfl)
    (.seq (Settings.leads_delay _) (Leads.done fun _ _ => trivial)))))))

open Settings in
theorem leads_refused {Q : Store → Prop} (h : tenWiFi = [] ∨ matkhau = []) (v : Store) :
    (call Q).Leads State.store (Holds v) (stores tenWiFi matkhau) (Holds v) := by
  refine Leads.known (b := false) (fun _ _ => trivial) (fun _ _ _ => ?_) (Leads.done fun _ _ => trivial)
  rcases h with rfl | rfl
  · rfl
  · simp

/-- The state at the reset of a request. -/
theorem store_resets {xs : Run} {k : List Sketch} {s t : State} {u : Store}
    (hu : (call (Settings.Holds u)).Leads State.store (Settings.Holds s.store)
      (stores tenWiFi matkhau) (Settings.Holds u))
    (h : resets react xs (handleRequest (some (.caidat tenWiFi matkhau)) :: k) s = some t) :
    t.store = u := by
  obtain ⟨ys, r, hr, h⟩ := resets_seq Settings.store_react h
  obtain ⟨as, bs, w, -, hf, hz⟩ := finish_of_resets (l := [stores tenWiFi matkhau])
    (by simpa using lasts_stores) h
  obtain ⟨zs, x, hx, hz⟩ := resets_seq Settings.store_react hz
  rw [resets_reset Settings.store_react hz, hx]
  exact Leads.finish Settings.store_react hu hr hf

/-- What `setup` has decoded. -/
def decoded : Event → Option (List UInt8 × List UInt8)
  | .wifi ten_wifi mk_wifi => some (ten_wifi, mk_wifi)
  | _ => none

structure Decoding where
  rom : Nat → UInt8
  flash : Nat → UInt8
  credentials : List (List UInt8 × List UInt8)

def decoding (s : State) : Decoding where
  rom := s.rom
  flash := s.flash
  credentials := s.log.filterMap decoded

theorem decoding_react (r : Outside) (s : State) : decoding (react r s) = decoding s := by
  cases r with
  | wait ms => rfl
  | button spin =>
    obtain ⟨last, c, x, hs, -, -⟩ := press_spec spin s
    simp only [react]
    split
    · rw [hs]
      rfl
    · rfl

/-- Code that decodes nothing. -/
abbrev Silent (c : Sketch) : Prop :=
  c.Every fun _ s t => (decoding t).credentials = (decoding s).credentials

theorem silent_delay (ms : Nat) : Silent (delay ms) := fun _ _ _ => rfl

theorem silent_reply (pin : Nat) (l : List Value) : Silent (reply pin l) := by
  intro i s
  dsimp only
  split
  · rfl
  · rfl

variable (P)

theorem silent_handleApp (w : Option AppWrite) : Silent (handleApp P w) := by
  have hword : ∀ a b p, Silent (writeWord P a b p) := fun _ _ _ =>
    ⟨silent_delay _, fun _ _ => rfl, fun _ _ => rfl, fun _ _ => rfl, trivial⟩
  have hbyte : ∀ (a : Nat) (v : UInt8) (f : State → State), (∀ s, (f s).log = s.log) →
      Silent (.block [delay 10, .set fun s => s.write a v, .set State.commit, delay 10, .set f,
        delay 10]) := fun a v f hf =>
    ⟨silent_delay _, fun _ _ => rfl, fun _ _ => rfl, silent_delay _,
      fun _ s => congrArg (List.filterMap decoded) (hf s), silent_delay _, trivial⟩
  rcases w with - | ⟨pin, param⟩
  · trivial
  · refine ⟨fun _ _ => rfl, ?_⟩
    cases pin with
    | V1 =>
      exact ⟨⟨silent_delay _, silent_reply _ _, silent_delay _, silent_reply _ _, silent_delay _,
        fun _ _ => rfl, trivial⟩, silent_delay _, silent_reply _ _, silent_delay _, silent_reply _ _,
        silent_delay _, fun _ _ => rfl, trivial⟩
    | V11 =>
      exact ⟨⟨fun _ _ => rfl, fun _ _ => rfl, silent_delay _, silent_reply _ _, silent_delay _,
        trivial⟩, trivial⟩
    | V21 => exact ⟨silent_delay _, fun _ _ => rfl, silent_delay _, trivial⟩
    | V22 => exact ⟨silent_delay _, fun _ _ => rfl, silent_delay _, trivial⟩
    | V30 => exact ⟨hword _ _ _, silent_delay _, trivial⟩
    | V32 => exact hbyte _ _ _ fun _ => rfl
    | V33 => exact hbyte _ _ _ fun _ => rfl
    | V34 => exact ⟨hword _ _ _, silent_delay _, fun _ _ => rfl, silent_delay _, trivial⟩

theorem silent_virtualWrite (pin : Nat) (values : State → List Value) :
    Silent (virtualWrite P pin values) := by
  refine ⟨fun i => silent_handleApp P i.app, fun i s => ?_⟩
  dsimp only
  split
  · rfl
  · rfl

theorem silent_testWiFi (n : Nat) : Silent (testWiFi (setupOnline P) setupOffline n) := by
  have hled : ∀ b, Silent (setLed b) := fun _ _ _ => rfl
  have hblink : Silent (.block [setLed false, delay 20, setLed true, delay 20]) :=
    ⟨hled _, silent_delay _, hled _, silent_delay _, trivial⟩
  induction n with
  | zero => exact ⟨hled _, fun _ _ => rfl, silent_delay _, trivial⟩
  | succ n ih =>
    exact ⟨⟨hled _, silent_delay _, fun _ _ => rfl, silent_delay _, Code.every_times hblink 7,
      fun i => silent_handleApp P i.app, silent_delay _, hled _, silent_delay _, trivial⟩,
      silent_delay _, ih⟩

structure Stored (f : Nat → UInt8) (l : List (List UInt8 × List UInt8)) (v : Decoding) : Prop where
  flash : v.flash = f
  credentials : v.credentials = l

structure Loaded (f : Nat → UInt8) (l : List (List UInt8 × List UInt8)) (v : Decoding) : Prop where
  rom : v.rom = f
  credentials : v.credentials = l

def Decoded (l : List (List UInt8 × List UInt8)) (v : Decoding) : Prop := v.credentials = l

/-- `setup` decodes what the EEPROM holds, once. -/
theorem leads_setup (f : Nat → UInt8) (l : List (List UInt8 × List UInt8)) {Q : Decoding → Prop} :
    (call Q).Leads decoding (Stored f l) (setup P) (Decoded ((cString ((List.range 32).map f),
      cString ((List.range 64).map fun i => f (32 + i))) :: l)) := by
  have hidle : ∀ {c : Sketch}, Made (fun s t => decoding t = decoding s) (fun _ => False) c →
      (call Q).Leads decoding (Loaded f l) c (Loaded f l) :=
    fun hc => Leads.idle (fun _ _ => trivial) (fun _ h => h.elim) hc
  have hdelay : ∀ ms, Made (fun s t => decoding t = decoding s) (fun _ => False) (delay ms) :=
    fun _ _ _ _ => rfl
  refine .seq (Leads.step (B := Loaded f l) (fun _ _ => trivial) fun _ _ hs _ =>
      ⟨trivial, hs.flash, hs.credentials⟩) (.seq (hidle fun _ _ => rfl)
    (.seq (hidle fun _ _ => rfl) (.seq (hidle fun _ _ => rfl) (.seq (hidle fun _ _ => rfl)
    (.seq (hidle fun _ _ => rfl) (.seq (hidle ⟨trivial, trivial⟩) (.seq (hidle (hdelay _)) (.seq
    (R := fun s => Decoded ((cString ((List.range 32).map f),
      cString ((List.range 64).map fun i => f (32 + i))) :: l) (decoding s)) ?_ ?_))))))))
  · refine Leads.step (fun _ _ => trivial) fun _ s hs _ => ⟨trivial, ?_⟩
    rw [← hs.rom, ← hs.credentials]
    rfl
  · refine Triple.every (C := (call Q).on decoding) (Spec.stable fun _ _ => trivial)
      (E := fun _ s t => (decoding t).credentials = (decoding s).credentials) (fun _ _ => trivial) ?_ ?_
    · intro i g k s _ he hs
      exact ⟨trivial, he.trans hs⟩
    · exact ⟨silent_delay _, silent_testWiFi P 20, silent_delay _, fun _ _ => rfl, fun _ _ => rfl,
        silent_delay _, silent_virtualWrite P _ _, silent_delay _, silent_virtualWrite P _ _,
        silent_delay _, fun _ _ => rfl, fun _ _ => rfl, fun _ _ => rfl, trivial⟩

end Wifi

/-- The device after the reset has the credentials of the form, and every other cell as before. -/
structure Saved (P : Platform) (tenWiFi matkhau : List UInt8) (s t : State) : Prop where
  decoded : ∀ xs u, finish react xs [setup P] t = some u →
    (Wifi.decoding u).credentials = (tenWiFi, matkhau) :: (Wifi.decoding t).credentials
  rest : ∀ j, 96 ≤ j → j < 512 → t.rom j = s.rom j

structure Unchanged (s t : State) : Prop where
  rom : ∀ j < 512, t.rom j = s.rom j
  BLOCK : t.BLOCK = s.BLOCK
  timedownMinute : t.timedownMinute = s.timedownMinute

theorem saved_of_fits {P : Platform} {tenWiFi matkhau : List UInt8} (h1 : 0 ∉ tenWiFi)
    (h2 : 0 ∉ matkhau) (hf : Fits tenWiFi matkhau) {s t : State}
    (ht : t.store = s.store.form tenWiFi matkhau) : Saved P tenWiFi matkhau s (restart t) := by
  have hflash : (restart t).flash = (s.store.form tenWiFi matkhau).rom := by
    show t.store.flash = _
    rw [ht]
    rfl
  refine ⟨fun xs u hu => ?_, fun j hj _ => ?_⟩
  · have hd : Wifi.Decoded _ (Wifi.decoding u) :=
      Leads.finish Wifi.decoding_react (Wifi.leads_setup P _ (Wifi.decoding (restart t)).credentials)
        (s := restart t) ⟨hflash, rfl⟩ hu
    have htt : (List.range 32).map (s.store.form tenWiFi matkhau).rom =
        (List.range 32).map fun j => (tenWiFi[j]?).getD 0 :=
      List.map_congr_left fun j hj => Store.form_tenWiFi _ hf (List.mem_range.1 hj)
    have htm : (List.range 64).map (fun j => (s.store.form tenWiFi matkhau).rom (32 + j)) =
        (List.range 64).map fun j => (matkhau[j]?).getD 0 :=
      List.map_congr_left fun j hj => Store.form_matkhau _ hf (List.mem_range.1 hj)
    rw [htt, htm, cString_field hf.tenWiFi.2 h1, cString_field hf.matkhau.2 h2] at hd
    exact hd
  · show (restart t).flash j = s.rom j
    rw [hflash]
    exact Store.form_rest _ hf hj

/-- A form is saved or refused as a whole exactly when the EEPROM has room for it, or a text is
empty while the truck is locked and nothing waits to be committed. -/
theorem caidat_iff (P : Platform) (tenWiFi matkhau : List UInt8) (h1 : 0 ∉ tenWiFi) (h2 : 0 ∉ matkhau)
    (xs : Run) (k : List Sketch) (s t : State)
    (h : resets react xs (handleRequest (some (.caidat tenWiFi matkhau)) :: k) s = some t) :
    (Fits tenWiFi matkhau ∧ Saved P tenWiFi matkhau s (restart t) ∨
      (tenWiFi = [] ∨ matkhau = []) ∧ Unchanged s (restart t)) ↔
    Fits tenWiFi matkhau ∨ (tenWiFi = [] ∨ matkhau = []) ∧ s.BLOCK = true ∧ s.timedownMinute = 0 ∧
      ∀ j < 512, s.rom j = s.flash j := by
  constructor
  · rintro (⟨hf, -⟩ | ⟨he, hu⟩)
    · exact .inl hf
    · have ht := Wifi.store_resets (Wifi.leads_refused he s.store) h
      refine .inr ⟨he, hu.BLOCK.symm, hu.timedownMinute.symm, fun j hj => ?_⟩
      rw [← hu.rom j hj]
      exact congrFun (congrArg Store.flash ht) j
  · rintro (hf | ⟨he, hb, hm, hr⟩)
    · exact .inl ⟨hf, saved_of_fits h1 h2 hf (Wifi.store_resets (Wifi.leads_stores hf s.store) h)⟩
    · have ht := Wifi.store_resets (Wifi.leads_refused he s.store) h
      refine .inr ⟨he, fun j hj => ?_, hb.symm, hm.symm⟩
      rw [hr j hj]
      exact congrFun (congrArg Store.flash ht) j

theorem caidat_saved : ∃ t, resets react (idle 22) [handleRequest (some (.caidat [65] [66]))]
      (powerOn (flashOf 5)) = some t ∧
    (Fits [65] [66] ∧ Saved bench [65] [66] (powerOn (flashOf 5)) (restart t) ∨
      (([65] : List UInt8) = [] ∨ ([66] : List UInt8) = []) ∧ Unchanged (powerOn (flashOf 5)) (restart t)) :=
  ⟨_, rfl, (caidat_iff bench [65] [66] (by decide) (by decide) (idle 22) [] _ _ rfl).2
    (.inl ⟨by decide, by decide⟩)⟩

/-- A refused form locks an unlocked truck. -/
theorem caidat_refused : ¬ ∀ (P : Platform) (tenWiFi matkhau : List UInt8), 0 ∉ tenWiFi → 0 ∉ matkhau →
    ∀ (xs : Run) (k : List Sketch) (s t : State),
      resets react xs (handleRequest (some (.caidat tenWiFi matkhau)) :: k) s = some t →
      Fits tenWiFi matkhau ∧ Saved P tenWiFi matkhau s (restart t) ∨
        (tenWiFi = [] ∨ matkhau = []) ∧ Unchanged s (restart t) := by
  intro h
  have hr := h bench [] [] (by decide) (by decide) (idle 5) []
    { powerOn (flashOf 5) with BLOCK := false, timedownMinute := 5 } _ rfl
  rcases hr with ⟨hf, -⟩ | ⟨-, hu⟩
  · exact absurd hf.tenWiFi.1 (by decide)
  · exact absurd hu.BLOCK (by decide)

end Center
