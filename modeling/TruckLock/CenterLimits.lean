import TruckLock.CenterSettings

/-!
# Limits out of range

The duration and the threshold have two cells, the lower and the upper limit
one, and no handler looks at the number that the app sends.
-/
namespace Center

open Firmware Spec

/-- The four settings that are limits. -/
inductive Limit where
  | duration | threshold | downLimit | upLimit
  deriving DecidableEq, Repr

namespace Limit

def pin : Limit → VirtualPin
  | duration => .V30
  | threshold => .V34
  | downLimit => .V32
  | upLimit => .V33

/-- The largest number that its cells hold. -/
def top : Limit → Int
  | duration | threshold => 65535
  | downLimit | upLimit => 255

/-- The setting that the sketch works with. -/
def inForce (a : Settings) : Limit → Int
  | duration => a.duration
  | threshold => a.threshold
  | downLimit => a.downLimit
  | upLimit => a.upLimit

/-- The number that the bytes of `n` make: `asFloat()/256` and `asInt()%256`, or `asFloat()` alone. -/
def bytes (P : Platform) (n : Int) : Limit → Int
  | duration | threshold =>
    (P.floatToByte ((n : Rat) / 256)).toNat * 256 + (byte ((Param.ofInt n).asInt.tmod 256)).toNat
  | downLimit | upLimit => (P.floatToByte n).toNat

variable (P : Platform) {Q : Store → Prop} {v : Store} (n : Int)

/-- What the handler of a limit leaves. -/
def written (v : Store) : Limit → Store
  | duration => ((v.write 100 (P.floatToByte ((n : Rat) / 256))).write 101 (byte ((Param.ofInt n).asInt.tmod 256))).commit
  | threshold =>
    let v := ((v.write 104 (P.floatToByte ((n : Rat) / 256))).write 105 (byte ((Param.ofInt n).asInt.tmod 256))).commit
    { v with threshold := word v.rom 104 }
  | downLimit => let v := (v.write 102 (P.floatToByte n)).commit; { v with downLimit := cell v.rom 102 }
  | upLimit => let v := (v.write 103 (P.floatToByte n)).commit; { v with upLimit := cell v.rom 103 }

open Settings in
theorem leads_blynkWrite (l : Limit) : (call Q).Leads State.store (Holds v)
    (blynkWrite P ⟨l.pin, .ofInt n⟩) (Holds (l.written P n v)) := by
  cases l with
  | duration =>
    exact .seq (Settings.leads_writeWord P (by decide) n)
      (.seq (Settings.leads_delay _) (Leads.done fun _ _ => trivial))
  | threshold =>
    exact .seq (Settings.leads_writeWord P (by decide) n) (.seq (Settings.leads_delay _)
      (.seq (Settings.leads_set (g := fun v => { v with threshold := word v.rom 104 }) fun _ => rfl)
      (.seq (Settings.leads_delay _) (Leads.done fun _ _ => trivial))))
  | downLimit =>
    exact Settings.leads_byte P (a := 102) (by decide) n (f := fun s => { s with downLimit := s.read 102 })
      (g := fun v => { v with downLimit := cell v.rom 102 }) fun _ => rfl
  | upLimit =>
    exact Settings.leads_byte P (a := 103) (by decide) n (f := fun s => { s with upLimit := s.read 103 })
      (g := fun v => { v with upLimit := cell v.rom 103 }) fun _ => rfl

theorem inForce_written (l : Limit) : l.inForce (l.written P n v).ram = l.bytes P n := by
  cases l <;> simp [inForce, written, bytes, Store.ram, word, cell]

/-- A number survives the conversions exactly when the cells hold it. -/
theorem bytes_eq_iff (l : Limit) : l.bytes P n = n ↔ 0 ≤ n ∧ n ≤ l.top := by
  have hword : ((P.floatToByte ((n : Rat) / 256)).toNat : Int) * 256 + (byte ((Param.ofInt n).asInt.tmod 256)).toNat = n ↔
      0 ≤ n ∧ n ≤ 65535 := by
    constructor
    · intro h
      have h1 := (P.floatToByte ((n : Rat) / 256)).toNat_lt
      have h2 := (byte ((Param.ofInt n).asInt.tmod 256)).toNat_lt
      omega
    · rintro ⟨h0, h1⟩
      have hn : ((UInt16.ofNat n.toNat).toNat : Int) = n := by
        rw [UInt16.toNat_ofNat']
        omega
      have hb := Settings.byte_word (UInt16.ofNat n.toNat)
      rw [← Settings.floatToByte_high P, hn] at hb
      rw [asInt_ofInt h0 (by omega), Int.tmod_eq_emod_of_nonneg h0]
      simpa [hn] using hb
  have hbyte : ((P.floatToByte n).toNat : Int) = n ↔ 0 ≤ n ∧ n ≤ 255 := by
    constructor
    · intro h
      have h1 := (P.floatToByte n).toNat_lt
      omega
    · rintro ⟨h0, h1⟩
      have hn : ((UInt8.ofNat n.toNat).toNat : Int) = n := by
        rw [UInt8.toNat_ofNat']
        omega
      have hb := Settings.floatToByte_low P (UInt8.ofNat n.toNat)
      rw [hn] at hb
      rw [hb, hn]
  cases l with
  | duration => exact hword
  | threshold => exact hword
  | downLimit => exact hbyte
  | upLimit => exact hbyte

end Limit

/-- A write of a limit takes effect or leaves the setting as it was exactly when the cells hold the
number, or its bytes make the setting that stands already. -/
theorem limit_kept_iff (P : Platform) (l : Limit) (n : Int) (xs : Run) (s t : State)
    (h : finish react xs [blynkWrite P ⟨l.pin, .ofInt n⟩] s = some t) :
    (l.inForce t.store.ram = n ∨ l.inForce t.store.ram = l.inForce s.store.ram) ↔
      (0 ≤ n ∧ n ≤ l.top) ∨ l.bytes P n = l.inForce s.store.ram := by
  have ht : t.store = l.written P n s.store :=
    Leads.finish Settings.store_react (Limit.leads_blynkWrite P n l (v := s.store)) rfl h
  rw [ht, Limit.inForce_written, Limit.bytes_eq_iff]

theorem limit_kept_duration : ∃ t,
    finish react (idle 15) [blynkWrite bench ⟨Limit.duration.pin, .ofInt 300⟩] (powerOn (flashOf 5)) =
      some t ∧ (t.store.ram.duration = 300 ∨ t.store.ram.duration = 5) :=
  ⟨_, rfl, (limit_kept_iff bench .duration 300 (idle 15) (powerOn (flashOf 5)) _ rfl).2
    (.inl (by decide))⟩

/-- A negative duration becomes a long one. -/
theorem limit_changed : ¬ ∀ (P : Platform) (l : Limit) (n : Int) (xs : Run) (s t : State),
    finish react xs [blynkWrite P ⟨l.pin, .ofInt n⟩] s = some t →
    l.inForce t.store.ram = n ∨ l.inForce t.store.ram = l.inForce s.store.ram := by
  intro h
  have hn := h bench .duration (-1) (idle 15) (powerOn (flashOf 5)) _ rfl
  exact absurd hn (by decide +kernel)

end Center
