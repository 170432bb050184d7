import TruckLock.Thermometer

/-!
# The two copies of the credentials

`setup` of Center copies the credentials for `Blynk.begin` too, into arrays
that are allocated for an empty text.
-/
namespace Center

open Firmware

/-- `char ten_wifi_blynk[] = "";` after its loop. -/
def tenWifiBlynk (s : State) : Chars := (Chars.literal []).copy 32 (tenWifi s)

def mkWifiBlynk (s : State) : Chars := (Chars.literal []).copy 32 (mkWifi s)

/-- Blynk is given the texts that the Wi-Fi is given, and every character has gone into its array. -/
structure OneSet (s : State) : Prop where
  ten_wifi_blynk : (tenWifiBlynk s).outside = []
  mk_wifi_blynk : (mkWifiBlynk s).outside = []
  same : (tenWifiBlynk s).text = some (cString (tenWifi s)) ∧ (mkWifiBlynk s).text = some (cString (mkWifi s))

/-- The loops leave the arrays whatever the EEPROM holds. -/
theorem not_oneSet (s : State) : ¬ OneSet s := fun h => Chars.copy_outside (by decide) h.ten_wifi_blynk

/-- Center never keeps the credentials one set, the thermometer does up to an SSID of 31 characters. -/
theorem one_set_iff (v : Store) (tenWiFi matkhau : List UInt8) (hf : Fits tenWiFi matkhau)
    (hm : matkhau.length ≤ 63) (h1 : 0 ∉ tenWiFi) (h2 : 0 ∉ matkhau) :
    (∀ s : State, s.rom = (v.form tenWiFi matkhau).rom → ¬ OneSet s) ∧
    ((∀ xs, Thermometer.OneSet (Thermometer.after (v.form tenWiFi matkhau).rom xs).state) ↔
      tenWiFi.length ≤ 31) :=
  ⟨fun s _ => not_oneSet s, Thermometer.one_set_of_length h1 h2 (Thermometer.holds_form v hf) hf.tenWiFi.2 hm⟩

def blankStore : Store := (powerOn fun _ => 0).store

theorem one_set_short : Thermometer.OneSet
    (Thermometer.after (blankStore.form (List.replicate 31 65) [66]).rom (List.replicate 20 (.run {}))).state :=
  (one_set_iff blankStore (List.replicate 31 65) [66] ⟨by decide, by decide⟩ (by decide) (by decide)
    (by decide)).2.2 (by decide) _

/-- With an SSID of 32 characters both devices write behind an array. -/
theorem one_set_long : ¬ ∀ (v : Store) (tenWiFi matkhau : List UInt8), Fits tenWiFi matkhau →
    matkhau.length ≤ 63 → 0 ∉ tenWiFi → 0 ∉ matkhau →
    (∀ s : State, s.rom = (v.form tenWiFi matkhau).rom → OneSet s) ∧
    ∀ xs, Thermometer.OneSet (Thermometer.after (v.form tenWiFi matkhau).rom xs).state := by
  intro h
  have hf : Fits (List.replicate 32 65) [66] := ⟨by decide, by decide⟩
  obtain ⟨hc, ht⟩ := h blankStore (List.replicate 32 65) [66] hf (by decide) (by decide) (by decide)
  refine Thermometer.copied_outside (Thermometer.holds_form blankStore hf) (by decide) (by decide) ?_
  exact (ht _).ten_wifi_blynk

end Center
