import TruckLock.Cam
import TruckLock.CamCommand
import TruckLock.Views
import Mathlib.Algebra.Group.Int.Defs
import Mathlib.Algebra.Group.Nat.Defs
import Mathlib.Data.List.TakeWhile

/-!
# Naming faces

`cmd_handler` from the query on. A query without `var` and `val` is a command
of the sketch's own, which `getCommand` reads; the first parameter of
`facename` is the index of the name that becomes the second one.
-/
namespace Cam

open Firmware

/-- `isspace`. -/
def isSpace (c : Char) : Bool := c = ' ' || 9 ≤ c.toNat && c.toNat ≤ 13

def numeral (w : Text) : Nat := w.foldl (fun n c => 10 * n + (c.toNat - 48)) 0

/-- The number in front of a text, as `atol` reads it: 0 without digits, and no more than a `long`
holds. -/
def toInt (w : Text) : Int :=
  let w := w.dropWhile isSpace
  let signed := w.head? = some '-' || w.head? = some '+'
  let n : Int := numeral ((if signed then w.tail else w).takeWhile Char.isDigit)
  if w.head? = some '-' then max (-2 ^ 31) (-n) else min (2 ^ 31 - 1) n

/-- `httpd_query_key_value` of a query and a key: whether it returns `ESP_OK`, and the text that it
leaves in the buffer. -/
abbrev KeyValue := Text → Text → Bool × Text

/-- The variables of `getCommand` once `cmd_handler` has read the query. -/
def commandOf (keyValue : KeyValue) (query : Text) : Received :=
  if (keyValue query "var".toList).1 && (keyValue query "val".toList).1 then {}
  else received ('?' :: query)

/-- `var=...&val=...`. -/
def official (var : Text) (val : Int) : Control :=
  if var ∈ ["framesize".toList, "quality".toList, "contrast".toList, "brightness".toList] then .sensor
  else if var = "face_detect".toList then .faceDetect val
  else if var = "face_enroll".toList then .faceEnroll val
  else if var = "face_recognize".toList then .faceRecognize val
  else if var = "flash".toList then .flash val
  else .undefined

/-- What a query asks for. No command has the name `your cmd`, which has a blank in it. -/
def control (keyValue : KeyValue) (query : Text) : Control :=
  if query = [] then .undefined
  else
    let q := commandOf keyValue query
    if q.cmd ≠ [] then
      if q.cmd = "facename".toList then .facename (toInt (q.P 0)) (q.P 1)
      else if q.cmd = "clearface".toList then .clearface
      else .undefined
    else
      official (keyValue query "var".toList).2
        (toInt (if (keyValue query "var".toList).1 then (keyValue query "val".toList).2 else []))

namespace Event

/-- The element of `recognize_face_matched_name` that is written. -/
def access : Event → Option Int
  | .named index => some index
  | _ => none

end Event

/-- The names, and the elements written so far. -/
structure Names where
  recognizeFaceMatchedName : Fin 7 → Text
  accesses : List Int

def State.names (s : State) : Names where
  recognizeFaceMatchedName := s.recognizeFaceMatchedName
  accesses := s.log.filterMap Event.access

/-- An assignment to one element. -/
def Names.write (v : Names) (index : Int) (name : Text) : Names where
  recognizeFaceMatchedName j := if (j.val : Int) = index then name else v.recognizeFaceMatchedName j
  accesses := index :: v.accesses

theorem names_react (r : Outside) (s : State) : (react r s).names = s.names := by
  obtain ⟨level⟩ := r
  simp only [react]
  by_cases h : s.camRXPin = true ∧ level = false
  · simp only [State.names, h, and_self, ↓reduceIte]
    rfl
  · simp [State.names, h]

/-- `P1` as the index of a name: a decimal numeral from 0 to 6. -/
def nameIndex (p1 : Text) : Option (Fin 7) :=
  if h : (p1 ≠ [] ∧ p1.all Char.isDigit) ∧ numeral p1 < 7 then some ⟨numeral p1, h.2⟩ else none

/-- A request names the face with the given index, if there is one, and writes no element beyond
the seven. -/
structure Named (p1 p2 : Text) (v w : Names) : Prop where
  names : w.recognizeFaceMatchedName =
    (nameIndex p1).elim v.recognizeFaceMatchedName (Function.update v.recognizeFaceMatchedName · p2)
  inside : ∃ is, w.accesses = is ++ v.accesses ∧ ∀ i ∈ is, 0 ≤ i ∧ i < 7

theorem isSpace_digit {c : Char} (h : c.isDigit = true) : isSpace c = false := by
  simp only [Char.isDigit, Bool.and_eq_true, decide_eq_true_eq, ge_iff_le,
    UInt32.le_iff_toNat_le] at h
  obtain ⟨hlo, -⟩ := h
  have hlo : 48 ≤ c.toNat := hlo
  have hne : c ≠ ' ' := by
    rintro rfl
    exact absurd hlo (by decide)
  simp [isSpace, hne]
  omega

theorem toInt_of_nameIndex {p1 : Text} {j : Fin 7} (h : nameIndex p1 = some j) :
    toInt p1 = (j.val : Int) := by
  unfold nameIndex at h
  split at h
  · rename_i hp
    obtain ⟨⟨hne, hd⟩, hlt⟩ := hp
    obtain rfl := Option.some.inj h
    have hall : p1.takeWhile Char.isDigit = p1 :=
      List.takeWhile_eq_self_iff.2 (List.all_eq_true.1 hd)
    cases p1 with
    | nil => exact absurd rfl hne
    | cons c w =>
      have hc : c.isDigit = true := List.all_eq_true.1 hd c (by simp)
      have hm : c ≠ '-' := fun h => by simp [h] at hc
      have hp : c ≠ '+' := fun h => by simp [h] at hc
      have hdrop : (c :: w).dropWhile isSpace = c :: w := by simp [isSpace_digit hc]
      simp only [toInt, hdrop]
      simp [hm, hp, hall]
      omega
  · simp at h

theorem names_facename {index : Int} {name : Text} {xs : List (Choice Env Outside)} {s t : State}
    (h : finish react xs [cmdHandler (.facename index name)] s = some t) :
    t.names = s.names.write index name := by
  have hc : (Spec.call fun w => w = s.names.write index name).Leads State.names (fun v => v = s.names)
      (cmdHandler (.facename index name)) fun w => w = s.names.write index name := by
    refine Spec.Leads.step (fun _ _ => trivial) fun i u hu _ => ⟨trivial, ?_⟩
    rw [← hu]
    rfl
  exact hc.finish names_react rfl h

theorem named_write (p1 p2 : Text) (v : Names) :
    Named p1 p2 v (v.write (toInt p1) p2) ↔
      (nameIndex p1).isSome ∨ ∃ j : Fin 7, toInt p1 = (j.val : Int) ∧ v.recognizeFaceMatchedName j = p2 := by
  cases hj : nameIndex p1 with
  | some k =>
    have hk := toInt_of_nameIndex hj
    refine ⟨fun _ => .inl rfl, fun _ => ⟨?_, [toInt p1], rfl, ?_⟩⟩
    · funext j
      simp only [Names.write, hj, hk, Option.elim_some, Function.update_apply, Int.natCast_inj,
        Fin.val_inj]
    · intro i hi
      have := k.isLt
      rw [List.mem_singleton.1 hi, hk]
      omega
  | none =>
    constructor
    · rintro ⟨hn, is, his, hin⟩
      obtain rfl : [toInt p1] = is := List.append_cancel_right his
      obtain ⟨h0, h7⟩ := hin (toInt p1) (by simp)
      refine .inr ⟨⟨(toInt p1).toNat, by omega⟩, by simp; omega, ?_⟩
      have hn := congrFun hn ⟨(toInt p1).toNat, by omega⟩
      simpa [Names.write, hj, Int.toNat_of_nonneg h0] using hn.symm
    · rintro (h | ⟨j, hi, hp⟩)
      · simp at h
      · refine ⟨?_, [toInt p1], rfl, ?_⟩
        · funext k
          simp only [Names.write, hj, hi, Option.elim_none, Int.natCast_inj, Fin.val_inj]
          split
          · rename_i he
            rw [he, hp]
          · rfl
        · intro i hm
          have := j.isLt
          rw [List.mem_singleton.1 hm, hi]
          omega

theorem control_facename {keyValue : KeyValue} {query : Text}
    (h : (commandOf keyValue query).cmd = "facename".toList) :
    control keyValue query = .facename (toInt ((commandOf keyValue query).P 0))
      ((commandOf keyValue query).P 1) := by
  have hq : query ≠ [] := by
    rintro rfl
    unfold commandOf at h
    split at h
    · exact absurd h (by decide)
    · exact absurd h (by decide)
  simp [control, hq, h]

/-- A `facename` request is safe exactly when its first parameter is the index of a name, or its
number is and the face has the new name already. -/
theorem facename_iff (keyValue : KeyValue) (query : Text)
    (hcmd : (commandOf keyValue query).cmd = "facename".toList) (xs : List (Choice Env Outside))
    (s t : State) (h : finish react xs [cmdHandler (control keyValue query)] s = some t) :
    Named ((commandOf keyValue query).P 0) ((commandOf keyValue query).P 1) s.names t.names ↔
      (nameIndex ((commandOf keyValue query).P 0)).isSome ∨
      ∃ j : Fin 7, toInt ((commandOf keyValue query).P 0) = (j.val : Int) ∧
        s.recognizeFaceMatchedName j = (commandOf keyValue query).P 1 := by
  rw [control_facename hcmd] at h
  rw [names_facename h]
  exact named_write _ _ _

/-- Queries without `var` and `val`. -/
def noKey : KeyValue := fun _ _ => (false, [])

theorem facename_three : ∃ t, finish react [.run {}]
      [cmdHandler (control noKey "facename=3;Linh".toList)] (powerOn fun _ => {}) = some t ∧
    Named "3".toList "Linh".toList (powerOn fun _ => {}).names t.names :=
  ⟨_, rfl, (facename_iff noKey "facename=3;Linh".toList (by decide) [.run {}] _ _ rfl).2
    (.inl (by decide))⟩

/-- Without a number the name of the first face is lost. -/
theorem facename_unsafe : ¬ ∀ (keyValue : KeyValue) (query : Text),
    (commandOf keyValue query).cmd = "facename".toList → ∀ (xs : List (Choice Env Outside)) (s t : State),
      finish react xs [cmdHandler (control keyValue query)] s = some t →
      Named ((commandOf keyValue query).P 0) ((commandOf keyValue query).P 1) s.names t.names := by
  intro h
  have hn := (h noKey "facename=;Linh".toList (by decide) [.run {}] (powerOn fun _ => {}) _ rfl).names
  have h0 := congrFun hn 0
  exact absurd h0 (by decide)

end Cam
