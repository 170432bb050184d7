import TruckLock.CamFace
import Mathlib.Algebra.Group.Nat.Defs

/-!
# Where the overlay texts stand

`rgb_print` centres a text of 14 pixels a character; the subtraction is
unsigned, so a text that is wider than the image ends up far to its right.
-/
namespace Cam

open Firmware

/-- In the middle, up to rounding. -/
def Centred (width : Int) (str : Text) (x : Int) : Prop :=
  (2 * x + 14 * str.length - width).natAbs ≤ 1

instance (width : Int) (str : Text) (x : Int) : Decidable (Centred width str x) :=
  inferInstanceAs (Decidable (_ ≤ _))

theorem centred_printX {width : Int} {str : Text} (h : 14 * str.length ≤ width) (hw : width ≤ 400) :
    Centred width str (printX width str) := by
  have hmod : (width - str.length * 14) % 2 ^ 32 = width - str.length * 14 :=
    Int.emod_eq_of_lt (by omega) (by omega)
  simp only [Centred, printX, unsigned, hmod]
  omega

/-- A text that is too wide is moved beyond the half of the unsigned range. -/
theorem printX_wide {width : Int} {str : Text} (h : width < 14 * str.length) :
    2 ^ 32 ≤ 2 * printX width str + 1 + 14 * str.length - width := by
  have hpos : 0 ≤ (width - str.length * 14) % 2 ^ 32 := Int.emod_nonneg _ (by decide)
  have hdiv : (width - str.length * 14) % 2 ^ 32 =
      width - str.length * 14 - 2 ^ 32 * ((width - str.length * 14) / 2 ^ 32) := Int.emod_def _ _
  simp only [printX, unsigned]
  omega

theorem centred_iff {width : Int} (str : Text) (hw : width ≤ 400) :
    Centred width str (printX width str) ↔ 14 * str.length ≤ width := by
  constructor
  · intro h
    by_contra hn
    have hwide := printX_wide (Int.not_le.1 hn)
    simp only [Centred] at h
    omega
  · exact fun h => centred_printX h hw

/-- `rgb_print` centres exactly the texts that fit in the image. -/
theorem rgbPrint_centred (t : Task) (i : Env) (s : State) (hw : s.width t ≤ 400) :
    ∃ x u, Code.step i [rgbPrint t] s = some ([], u) ∧ u.log = .print t x (s.str t) :: s.log ∧
      (Centred (s.width t) (s.str t) x ↔ 14 * (s.str t).length ≤ s.width t) :=
  ⟨_, _, rfl, rfl, centred_iff (s.str t) hw⟩

/-- The state of a task with a text for an image. -/
def printing (t : Task) (width : Int) (str : Text) : State :=
  { width := put (fun _ => 0) t width, str := put (fun _ => []) t str, card := fun _ => {} }

theorem rgbPrint_centred_human : ∃ x u,
    Code.step {} [rgbPrint .loop] (printing .loop 400 "Human Detected".toList) = some ([], u) ∧
      u.log = [.print .loop x "Human Detected".toList] ∧
      (Centred 400 "Human Detected".toList x ↔ 14 * "Human Detected".toList.length ≤ (400 : Int)) :=
  rgbPrint_centred .loop {} (printing .loop 400 "Human Detected".toList) (by decide)

/-- An image of 160 pixels is too narrow for the alert. -/
theorem rgbPrint_wide : ¬ ∀ (t : Task) (i : Env) (s : State), 0 ≤ s.width t → s.width t ≤ 400 →
    ∃ x u, Code.step i [rgbPrint t] s = some ([], u) ∧ u.log = .print t x (s.str t) :: s.log ∧
      Centred (s.width t) (s.str t) x := by
  intro h
  obtain ⟨x, u, hu, hl, hc⟩ :=
    h .loop {} (printing .loop 160 "Intruder Alert!".toList) (by decide) (by decide)
  obtain rfl : _ = u := congrArg Prod.snd (Option.some.inj hu)
  obtain rfl : printX 160 "Intruder Alert!".toList = x := by
    injection hl with hprint
    injection hprint
  exact absurd hc (by decide)

end Cam
