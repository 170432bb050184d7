import Mathlib.Data.List.TakeWhile

/-!
# JSON objects of integers

A writer and a reader of JSON objects whose names are plain and whose values are
integers. The reader takes the whole text, and reads back what the writer wrote.
-/
namespace Json

abbrev Member := List Char × Int

/-- A character that stands for itself between quotes. -/
def plain (c : Char) : Bool := c ≠ '"' ∧ c ≠ '\\' ∧ 32 ≤ c.toNat

def writeInt (n : Int) : List Char := (toString n).toList

def writeName (name : List Char) : List Char := '"' :: (name ++ ['"', ':'])

def writeMember (m : Member) : List Char := writeName m.1 ++ writeInt m.2

def writeMembers : List Member → List Char
  | [] => []
  | [m] => writeMember m
  | m :: ms => writeMember m ++ ',' :: writeMembers ms

def write (ms : List Member) : List Char := '{' :: (writeMembers ms ++ ['}'])

def expect (c : Char) : List Char → Option (List Char)
  | d :: w => if d = c then some w else none
  | [] => none

/-- A numeral without leading zeros. -/
def readNat (w : List Char) : Option (Nat × List Char) :=
  let ds := w.takeWhile Char.isDigit
  if ds = [] ∨ (ds.head? = some '0' ∧ ds.length ≠ 1) then none
  else some (Nat.ofDigitChars 10 ds 0, w.dropWhile Char.isDigit)

def readInt (w : List Char) : Option (Int × List Char) :=
  match expect '-' w with
  | some w => (readNat w).map fun (n, w) => (-n, w)
  | none => (readNat w).map fun (n, w) => (n, w)

def readName (w : List Char) : Option (List Char × List Char) := do
  let w ← expect '"' w
  let v ← expect '"' (w.dropWhile plain)
  let v ← expect ':' v
  some (w.takeWhile plain, v)

def readMember (w : List Char) : Option (Member × List Char) := do
  let (name, w) ← readName w
  let (n, w) ← readInt w
  some ((name, n), w)

/-- Members with commas between them, at most as many as the bound. -/
def readMembers : Nat → List Char → Option (List Member × List Char)
  | 0, _ => none
  | bound + 1, w => do
    let (m, w) ← readMember w
    match expect ',' w with
    | some w => (readMembers bound w).map fun (ms, w) => (m :: ms, w)
    | none => some ([m], w)

/-- The members of the object that the whole text is. -/
def read (w : List Char) : Option (List Member) := do
  let w ← expect '{' w
  let (ms, w) ← if expect '}' w = some [] then some ([], w) else readMembers w.length w
  let w ← expect '}' w
  if w = [] then some ms else none

@[simp] theorem expect_cons_self (c : Char) (w : List Char) : expect c (c :: w) = some w := by simp [expect]

theorem expect_cons_ne {c d : Char} (h : d ≠ c) (w : List Char) : expect c (d :: w) = none := by
  simp [expect, h]

theorem takeWhile_append_stop {p : Char → Bool} {v w : List Char} (hv : ∀ c ∈ v, p c = true)
    (hw : ∀ c ∈ w.head?, p c = false) : (v ++ w).takeWhile p = v := by
  have hnil : w.takeWhile p = [] := by
    cases w with
    | nil => rfl
    | cons c w => simp [hw c rfl]
  rw [List.takeWhile_append_of_pos hv, hnil, List.append_nil]

theorem dropWhile_append_stop {p : Char → Bool} {v w : List Char} (hv : ∀ c ∈ v, p c = true)
    (hw : ∀ c ∈ w.head?, p c = false) : (v ++ w).dropWhile p = w := by
  have hself : w.dropWhile p = w := by
    cases w with
    | nil => rfl
    | cons c w => simp [hw c rfl]
  rw [List.dropWhile_append_of_pos hv, hself]

theorem isDigit_toDigits {n : Nat} : ∀ c ∈ Nat.toDigits 10 n, c.isDigit = true :=
  fun _ hc => Nat.isDigit_of_mem_toDigits (by decide) (by decide) hc

theorem head_toDigits {n : Nat} (h : (Nat.toDigits 10 n).head? = some '0') : n = 0 := by
  induction n using Nat.strongRecOn with
  | ind n ih =>
    by_cases hn : n < 10
    · rw [Nat.toDigits_of_lt_base hn] at h
      simpa using h
    · rw [Nat.toDigits_of_base_le (by decide) (Nat.not_lt.1 hn),
        List.head?_append, List.head?_eq_some_head Nat.toDigits_ne_nil, Option.some_or] at h
      have hdiv := ih (n / 10) (by omega) ((List.head?_eq_some_head _).trans h)
      omega

section

variable {w : List Char}

theorem readNat_toDigits (n : Nat) (hw : ∀ c ∈ w.head?, c.isDigit = false) :
    readNat (Nat.toDigits 10 n ++ w) = some (n, w) := by
  have hhead : ¬ ((Nat.toDigits 10 n).head? = some '0' ∧ (Nat.toDigits 10 n).length ≠ 1) := by
    rintro ⟨hzero, hlength⟩
    rw [head_toDigits hzero] at hlength
    exact hlength rfl
  rw [readNat, takeWhile_append_stop isDigit_toDigits hw, dropWhile_append_stop isDigit_toDigits hw,
    Nat.ofDigitChars_ten_toDigits]
  simp only [Nat.toDigits_ne_nil, false_or, if_neg hhead]

theorem writeInt_ofNat (n : Nat) : writeInt n = Nat.toDigits 10 n := by
  rw [writeInt, Int.toString_eq_repr]
  exact Nat.toList_repr

theorem writeInt_negSucc (n : Nat) : writeInt (Int.negSucc n) = '-' :: Nat.toDigits 10 (n + 1) := by
  simp [writeInt, toString, Int.repr]

theorem expect_toDigits {c : Char} (hc : c.isDigit = false) (n : Nat) :
    expect c (Nat.toDigits 10 n ++ w) = none := by
  cases h : Nat.toDigits 10 n with
  | nil => exact absurd h Nat.toDigits_ne_nil
  | cons d ds =>
    refine expect_cons_ne ?_ _
    rintro rfl
    have hd := isDigit_toDigits d (by rw [h]; exact List.mem_cons_self)
    simp [hc] at hd

theorem readInt_writeInt (n : Int) (hw : ∀ c ∈ w.head?, c.isDigit = false) :
    readInt (writeInt n ++ w) = some (n, w) := by
  cases n with
  | ofNat n =>
    rw [show Int.ofNat n = n from rfl, writeInt_ofNat, readInt, expect_toDigits (by decide),
      readNat_toDigits n hw]
    rfl
  | negSucc n =>
    rw [writeInt_negSucc, List.cons_append, readInt, expect_cons_self]
    simp only [readNat_toDigits (n + 1) hw]
    rfl

theorem readName_writeName {name : List Char} (hname : ∀ c ∈ name, plain c = true) :
    readName (writeName name ++ w) = some (name, w) := by
  have hstop : ∀ c ∈ (['"', ':'] ++ w).head?, plain c = false := by
    intro c hc
    obtain rfl : '"' = c := by simpa using hc
    decide
  rw [writeName, List.cons_append, List.append_assoc, readName, expect_cons_self]
  simp only [bind, Option.bind, takeWhile_append_stop hname hstop, dropWhile_append_stop hname hstop]
  simp

theorem readMember_writeMember {m : Member} (hm : ∀ c ∈ m.1, plain c = true)
    (hw : ∀ c ∈ w.head?, c.isDigit = false) : readMember (writeMember m ++ w) = some (m, w) := by
  rw [writeMember, List.append_assoc, readMember, readName_writeName hm]
  simp only [bind, Option.bind, readInt_writeInt m.2 hw]

end

theorem readMembers_writeMembers {m : Member} {ms : List Member} {bound : Nat}
    (hms : ∀ m' ∈ m :: ms, ∀ c ∈ m'.1, plain c = true) (hb : ms.length < bound) :
    readMembers bound (writeMembers (m :: ms) ++ ['}']) = some (m :: ms, ['}']) := by
  induction ms generalizing m bound with
  | nil =>
    obtain ⟨bound, rfl⟩ := Nat.exists_eq_add_of_lt hb
    rw [writeMembers, readMembers, readMember_writeMember (hms m (by simp)) (by simp)]
    rfl
  | cons m' ms ih =>
    cases bound with
    | zero => simp at hb
    | succ bound =>
      have hrest := ih (fun m'' h => hms m'' (List.mem_cons_of_mem _ h)) (Nat.lt_of_succ_lt_succ hb)
      rw [writeMembers, List.append_assoc, List.cons_append, readMembers,
        readMember_writeMember (hms m (by simp)) (by simp)]
      · simp [hrest]
      · simp

theorem length_writeMembers (ms : List Member) : ms.length ≤ (writeMembers ms).length := by
  induction ms with
  | nil => simp [writeMembers]
  | cons m ms ih =>
    cases ms with
    | nil => simp [writeMembers, writeMember, writeName]
    | cons m' ms => simp [writeMembers] at ih ⊢; omega

theorem read_write {ms : List Member} (hms : ∀ m ∈ ms, ∀ c ∈ m.1, plain c = true) :
    read (write ms) = some ms := by
  cases ms with
  | nil => rfl
  | cons m ms =>
    have hlength : ms.length < (writeMembers (m :: ms) ++ ['}']).length := by
      have h := length_writeMembers (m :: ms)
      simp at h ⊢
      omega
    have hopen : expect '}' (writeMembers (m :: ms) ++ ['}']) = none := by
      cases ms with
      | nil => exact expect_cons_ne (by decide) _
      | cons m' ms => exact expect_cons_ne (by decide) _
    rw [read, write, expect_cons_self]
    simp only [bind, Option.bind, hopen, readMembers_writeMembers hms hlength]
    simp

end Json
