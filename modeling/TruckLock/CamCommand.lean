import TruckLock.CamState
import Mathlib.Algebra.GroupWithZero.Nat
import Mathlib.Data.List.GetD

/-!
# The command parser of the ESP32-CAM sketch

`getCommand` reads a command one character at a time. The separators are
dropped the first time and kept afterwards, and the number of semicolons is
counted in one byte.
-/
namespace Cam

/-- The variables of `getCommand`; `P` are the texts `P1` to `P9`. -/
structure Received where
  command : Text := []
  cmd : Text := []
  P : Fin 9 → Text := fun _ => []
  receiveState : Bool := false
  cmdState : Bool := true
  strState : UInt8 := 1
  questionstate : Bool := false
  equalstate : Bool := false
  semicolonstate : Bool := false

def blank (c : Char) : Bool := c = ' ' || c = '\r' || c = '\n'

instance neZeroNine : NeZero 9 := ⟨Nat.succ_ne_zero 8⟩

/-- The test before a character is added to a parameter. -/
def takes (strState : UInt8) (equalstate semicolonstate : Bool) (c : Char) (j : Fin 9) : Bool :=
  if j = 0 then strState.toNat = 1 && (c ≠ '=' || equalstate)
  else if j = 8 then 9 ≤ strState.toNat && (c ≠ ';' || semicolonstate)
  else strState.toNat = j + 1 && c ≠ ';'

def getCommand (q : Received) (c : Char) : Received :=
  let receiveState := (c = '?' || q.receiveState) && !blank c
  if receiveState then
    let cmdState := q.cmdState && c ≠ '='
    let strState := if c = ';' then q.strState + 1 else q.strState
    { command := q.command ++ [c]
      cmd := if cmdState && (c ≠ '?' || q.questionstate) then q.cmd ++ [c] else q.cmd
      P := fun j => if !cmdState && takes strState q.equalstate q.semicolonstate c j
        then q.P j ++ [c] else q.P j
      receiveState := receiveState
      cmdState := cmdState
      strState := strState
      questionstate := q.questionstate || c = '?'
      equalstate := q.equalstate || c = '='
      semicolonstate := q.semicolonstate || (9 ≤ strState.toNat && c = ';') }
  else { q with receiveState := receiveState }

/-- The loop of `cmd_handler` over the characters, from the reset state. -/
def received (myCmd : Text) : Received := myCmd.foldl getCommand {}

/-- `?name=P1;...;P9`. -/
def command (name : Text) (fields : List Text) : Text :=
  '?' :: name ++ '=' :: [';'].intercalate fields

/-- The name and the parameters that have been given, and nothing in the others. -/
structure Received.Holds (name : Text) (fields : List Text) (q : Received) : Prop where
  cmd : q.cmd = name
  P : ∀ j : Fin 9, q.P j = fields.getD j []

/-- The name is read, with the question mark before it. -/
structure Naming (name : Text) (q : Received) : Prop where
  receiving : q.receiveState = true
  naming : q.cmdState = true
  cmd : q.cmd = name
  question : q.questionstate = true
  equal : q.equalstate = false
  semicolon : q.semicolonstate = false
  first : q.strState.toNat = 1
  P : ∀ j, q.P j = []

/-- Some parameters are read, and `p` of the next one; `n` semicolons have been counted. -/
structure Reading (name : Text) (fields : List Text) (p : Text) (n : Nat) (q : Received) : Prop
    extends q.Holds name (fields ++ [p]) where
  receiving : q.receiveState = true
  named : q.cmdState = false
  equal : q.equalstate = true
  count : q.strState.toNat = n + 1
  length : fields.length = min n 8
  semicolon : q.semicolonstate = decide (8 ≤ n)

theorem naming_start : Naming [] (getCommand {} '?') := by
  constructor <;> simp [getCommand, blank, takes]

theorem Naming.char {name : Text} {q : Received} (h : Naming name q) {c : Char}
    (hb : blank c = false) (he : c ≠ '=') (hs : c ≠ ';') : Naming (name ++ [c]) (getCommand q c) := by
  constructor <;> simp [getCommand, hb, he, hs, h.receiving, h.naming, h.cmd, h.question, h.equal,
    h.semicolon, h.first, h.P]

theorem Naming.text {name : Text} {q : Received} (h : Naming name q) (w : Text)
    (hw : ∀ c ∈ w, blank c = false ∧ c ≠ '=' ∧ c ≠ ';') :
    Naming (name ++ w) (w.foldl getCommand q) := by
  induction w generalizing name q with
  | nil => simpa using h
  | cons c w ih =>
    obtain ⟨hb, he, hs⟩ := hw c (by simp)
    simpa using ih (h.char hb he hs) fun d hd => hw d (by simp [hd])

/-- The number of semicolons that the byte has counted after one more character. -/
theorem strState_next {strState : UInt8} {n : Nat} (h : strState.toNat = n + 1) (c : Char)
    (hn : n + [c].count ';' < 255) :
    (if c = ';' then strState + 1 else strState).toNat = n + [c].count ';' + 1 := by
  by_cases hc : c = ';'
  · subst hc
    rw [if_pos rfl, UInt8.toNat_add, h, show (1 : UInt8).toNat = 1 from rfl]
    simp at hn ⊢
    omega
  · simp [hc, h]

/-- A character that is kept belongs to the parameter that is being read. -/
theorem takes_kept {strState : UInt8} {n : Nat} (hn : strState.toNat = n + 1) {c : Char}
    {semicolonstate : Bool} (hc : c ≠ ';' ∨ 8 ≤ n ∧ semicolonstate = true) (j : Fin 9) :
    takes strState true semicolonstate c j = decide (j.val = min n 8) := by
  rw [Bool.eq_iff_iff]
  by_cases h0 : j = 0
  · subst h0
    simp [takes, hn]
    omega
  by_cases h8 : j = 8
  · subst h8
    have hk : c ≠ ';' ∨ semicolonstate = true := hc.imp_right And.right
    simp only [takes, Fin.isValue, Fin.reduceEq, ↓reduceIte, hn, ne_eq, decide_not, Bool.and_eq_true, decide_eq_true_eq,
      Bool.or_eq_true, Bool.not_eq_eq_eq_not, Bool.not_true, decide_eq_false_iff_not, hk, and_true]
    show 9 ≤ n + 1 ↔ 8 = min n 8
    omega
  · have hlt := j.isLt
    have hne : j.val ≠ 8 := fun h => h8 (Fin.ext h)
    rcases hc with hc | ⟨hc, -⟩
    · simp [takes, h0, h8, hn, hc]
      omega
    · simp [takes, h0, h8, hn]
      omega

theorem getD_concat (fields : List Text) (p : Text) (j : Nat) :
    (fields ++ [p]).getD j [] = if j = fields.length then p else fields.getD j [] := by
  split
  · simp [*]
  · simp only [List.getD_eq_getElem?_getD, List.getElem?_append]
    split
    · rfl
    · rw [List.getElem?_eq_none (by simp; omega), List.getElem?_eq_none (by omega)]

theorem Naming.equals {name : Text} {q : Received} (h : Naming name q) :
    Reading name [] [] 0 (getCommand q '=') := by
  have hf := h.first
  have hj : ∀ j, takes q.strState false q.semicolonstate '=' j = false := by
    intro j
    by_cases h0 : j = 0
    · simp [takes, h0]
    · simp [takes, h0, hf]
  constructor
  · constructor
    · simp [getCommand, blank, h.receiving, h.cmd]
    · intro j
      cases hv : j.val <;> simp [getCommand, blank, h.receiving, h.equal, hj, h.P]
  all_goals simp [getCommand, blank, h.receiving, hf, h.semicolon]

theorem Reading.char {name p : Text} {fields : List Text} {n : Nat} {q : Received}
    (h : Reading name fields p n q) {c : Char} (hb : blank c = false) (hc : c = ';' → 8 ≤ n)
    (hn : n + [c].count ';' < 255) :
    Reading name fields (p ++ [c]) (n + [c].count ';') (getCommand q c) := by
  have hs := strState_next h.count c hn
  have hl := h.length
  have hk : c ≠ ';' ∨ 8 ≤ n + [c].count ';' ∧ q.semicolonstate = true := by
    by_cases he : c = ';'
    · exact .inr ⟨by have := hc he; omega, by simp [h.semicolon, hc he]⟩
    · exact .inl he
  have hmin : min (n + [c].count ';') 8 = fields.length := by
    by_cases he : c = ';'
    · have := hc he
      omega
    · simp [he, hl]
  constructor
  · constructor
    · simp [getCommand, hb, h.receiving, h.named, h.cmd]
    · intro j
      simp only [getCommand, hb, h.receiving, h.named, h.equal, Bool.or_true, Bool.not_false,
        Bool.and_true, Bool.true_and, Bool.false_and, ↓reduceIte, takes_kept hs hk, hmin,
        decide_eq_true_eq, h.P, getD_concat]
      split
      · rfl
      · rfl
  · simp [getCommand, hb, h.receiving]
  · simp [getCommand, hb, h.receiving, h.named]
  · simp [getCommand, hb, h.receiving, h.equal]
  · simpa [getCommand, hb, h.receiving] using hs
  · exact hmin.symm
  · by_cases he : c = ';'
    · subst he
      have h8 := hc rfl
      simp [getCommand, hb, h.receiving, h.semicolon, h8]
      omega
    · simp [getCommand, hb, h.receiving, h.semicolon, he]

theorem count_char (c : Char) (w : Text) : (c :: w).count ';' = [c].count ';' + w.count ';' := by
  rw [← List.singleton_append, List.count_append]

theorem Reading.text {name p : Text} {fields : List Text} {n : Nat} {q : Received}
    (h : Reading name fields p n q) (w : Text)
    (hw : ∀ c ∈ w, blank c = false ∧ (c = ';' → 8 ≤ n)) (hn : n + w.count ';' < 255) :
    Reading name fields (p ++ w) (n + w.count ';') (w.foldl getCommand q) := by
  induction w generalizing p n q with
  | nil => simpa using h
  | cons c w ih =>
    obtain ⟨hb, hc⟩ := hw c (by simp)
    rw [count_char] at hn ⊢
    have hi := ih (h.char hb hc (by omega))
      (fun d hd => ⟨(hw d (by simp [hd])).1, fun he => by have := (hw d (by simp [hd])).2 he; omega⟩)
      (by omega)
    simpa [Nat.add_assoc] using hi

/-- The separator of two parameters is dropped. -/
theorem Reading.next {name p : Text} {fields : List Text} {n : Nat} {q : Received}
    (h : Reading name fields p n q) (hn : n < 8) :
    Reading name (fields ++ [p]) [] (n + 1) (getCommand q ';') := by
  have hs : (q.strState + 1).toNat = n + 2 := by
    simpa using strState_next h.count ';' (by simp; omega)
  have hl := h.length
  have hj : ∀ j, takes (q.strState + 1) true q.semicolonstate ';' j = false := by
    intro j
    by_cases h0 : j = 0
    · simp [takes, h0, hs]
    · simp [takes, h0, h.semicolon, hn]
  constructor
  · constructor
    · simp [getCommand, blank, h.receiving, h.named, h.cmd]
    · intro j
      have hp : (getCommand q ';').P j = (fields ++ [p]).getD j [] := by
        simp [getCommand, blank, h.receiving, h.equal, hj, h.P]
      rw [getD_concat (fields ++ [p]), hp]
      split
      · exact List.getD_eq_default _ _ (by simp [*])
      · rfl
  · simp [getCommand, blank, h.receiving]
  · simp [getCommand, blank, h.receiving, h.named]
  · simp [getCommand, blank, h.receiving, h.equal]
  · simp [getCommand, blank, h.receiving, hs]
  · simp [hl]
    omega
  · simp [getCommand, blank, h.receiving, hs, h.semicolon]
    omega

theorem Reading.fields {name p : Text} {fields : List Text} {n : Nat} {q : Received}
    (h : Reading name fields p n q) (ws : List Text)
    (hw : ∀ w ∈ ws, ∀ c ∈ w, blank c = false ∧ c ≠ ';') (hn : n + ws.length < 8) :
    ∃ fields' p', fields' ++ [p'] = fields ++ p :: ws ∧
      Reading name fields' p' (n + ws.length) ((ws.flatMap (';' :: ·)).foldl getCommand q) := by
  induction ws generalizing fields p n q with
  | nil => exact ⟨fields, p, rfl, h⟩
  | cons w ws ih =>
    have hwc := hw w (by simp)
    have hcount : w.count ';' = 0 := List.count_eq_zero.2 fun hm => (hwc _ hm).2 rfl
    simp only [List.length_cons] at hn ⊢
    have hr := (h.next (by omega)).text w (fun c hc => ⟨(hwc c hc).1, fun he => absurd he (hwc c hc).2⟩)
      (by omega)
    simp only [List.nil_append, hcount, Nat.add_zero] at hr
    obtain ⟨fields', p', he, hq⟩ := ih hr (fun v hv => hw v (by simp [hv])) (by omega)
    refine ⟨fields', p', by simpa using he, ?_⟩
    simpa [Nat.add_assoc, Nat.add_comm 1] using hq

theorem intercalate_cons (p : Text) (ps : List Text) :
    [';'].intercalate (p :: ps) = p ++ ps.flatMap (';' :: ·) := by
  induction ps generalizing p with
  | nil => simp
  | cons w ps ih => rw [List.intercalate_cons_cons, ih]; simp

/-- The parser once the name and the first parameters are read. -/
theorem reading_command {name p : Text} {ps : List Text}
    (hname : ∀ c ∈ name, blank c = false ∧ c ≠ '=' ∧ c ≠ ';')
    (hps : ∀ w ∈ p :: ps, ∀ c ∈ w, blank c = false ∧ c ≠ ';') (hlt : ps.length < 8) :
    ∃ fields q, fields ++ [q] = p :: ps ∧
      Reading name fields q ps.length (received (command name (p :: ps))) := by
  have hp := hps p (by simp)
  have hcount : p.count ';' = 0 := List.count_eq_zero.2 fun hm => (hp _ hm).2 rfl
  have hr := (naming_start.text name hname).equals.text p
    (fun c hc => ⟨(hp c hc).1, fun he => absurd he (hp c hc).2⟩) (by omega)
  simp only [List.nil_append, hcount, Nat.add_zero] at hr
  obtain ⟨fields, q, he, hq⟩ := hr.fields ps (fun w hw => hps w (by simp [hw])) (by omega)
  refine ⟨fields, q, by simpa using he, ?_⟩
  simpa [received, command, intercalate_cons] using hq

theorem grow_P (q : Received) (c : Char) (j : Fin 9) :
    ((getCommand q c).P j).length ≤ (q.P j).length + 1 := by
  have h : (getCommand q c).P j = q.P j ++ [c] ∨ (getCommand q c).P j = q.P j := by
    unfold getCommand
    dsimp only
    by_cases hr : ((c = '?' || q.receiveState) && !blank c) = true
    · simp only [hr, ↓reduceIte]
      exact ite_eq_or_eq _ _ _
    · exact .inr (by simp [hr])
  rcases h with h | h
  · simp [h]
  · simp [h]

theorem grow_text (w : Text) (q : Received) (j : Fin 9) :
    ((w.foldl getCommand q).P j).length ≤ (q.P j).length + w.length := by
  induction w generalizing q with
  | nil => simp
  | cons c w ih =>
    have h1 := grow_P q c j
    have h2 := ih (getCommand q c)
    simp only [List.foldl_cons, List.length_cons]
    omega

/-- Past 255 the count starts again, and the ninth parameter misses the semicolon. -/
theorem overflow_text (w : Text) (q : Received) (hq : q.receiveState = true)
    (hw : ∀ c ∈ w, blank c = false) (hc : 256 ≤ q.strState.toNat + w.count ';') :
    ((w.foldl getCommand q).P 8).length < (q.P 8).length + w.length := by
  induction w generalizing q with
  | nil =>
    have hlt := q.strState.toNat_lt
    simp at hc
    omega
  | cons c w ih =>
    have hb := hw c (by simp)
    have h1 := grow_P q c 8
    have hr : (getCommand q c).receiveState = true := by simp [getCommand, hb, hq]
    simp only [List.foldl_cons, List.length_cons]
    by_cases hs : c = ';' ∧ q.strState.toNat = 255
    · obtain ⟨rfl, hs⟩ := hs
      have hz : (q.strState + 1).toNat = 0 := by
        rw [UInt8.toNat_add, hs, show (1 : UInt8).toNat = 1 from rfl]
      have hp : (getCommand q ';').P 8 = q.P 8 := by
        simp [getCommand, blank, hq, takes, hz]
      have h2 := grow_text w (getCommand q ';') 8
      rw [hp] at h2
      omega
    · rw [count_char] at hc
      have hn : (getCommand q c).strState.toNat = q.strState.toNat + [c].count ';' := by
        by_cases he : c = ';'
        · subst he
          have hlt := q.strState.toNat_lt
          have h255 : q.strState.toNat ≠ 255 := fun h => hs ⟨rfl, h⟩
          simp only [getCommand, hb, hq, Bool.or_true, Bool.not_false, Bool.and_true, ↓reduceIte,
            UInt8.toNat_add, show (1 : UInt8).toNat = 1 from rfl]
          simp
          omega
        · simp [getCommand, hb, hq, he]
      have h2 := ih (getCommand q c) hr (fun d hd => hw d (by simp [hd])) (by omega)
      omega

theorem holds_of_count {name : Text} {ps : List Text} {rest : Option Text}
    (hname : ∀ c ∈ name, blank c = false ∧ c ≠ '=' ∧ c ≠ ';') (hlen : ps.length ≤ 8)
    (hps : ∀ p ∈ ps, ∀ c ∈ p, blank c = false ∧ c ≠ ';')
    (hrest : ∀ r ∈ rest, ps.length = 8 ∧ ∀ c ∈ r, blank c = false)
    (hc : ∀ r ∈ rest, r.count ';' ≤ 246) :
    (received (command name (ps ++ rest.toList))).Holds name (ps ++ rest.toList) := by
  cases ps with
  | nil =>
    cases rest with
    | none =>
      have h := (naming_start.text name hname).equals.toHolds
      refine ⟨by simpa [received, command] using h.cmd, fun j => ?_⟩
      have hj := h.P j
      rw [getD_concat] at hj
      simpa [received, command] using hj
    | some r => simpa using (hrest r rfl).1
  | cons p ps =>
    simp only [List.length_cons] at hlen
    obtain ⟨fields, q, he, hq⟩ := reading_command hname hps (by omega)
    cases rest with
    | none =>
      have h := hq.toHolds
      rw [he] at h
      simpa using h
    | some r =>
      obtain ⟨h8, hr⟩ := hrest r rfl
      simp only [List.length_cons] at h8
      have h := ((hq.next (by omega)).text r (fun c hc => ⟨hr c hc, fun _ => by omega⟩)
        (by have := hc r rfl; omega)).toHolds
      rw [he] at h
      have hcmd : command name (p :: ps ++ (some r).toList) = command name (p :: ps) ++ ';' :: r := by
        simp [command, intercalate_cons]
      rw [hcmd]
      simpa [received, List.foldl_append] using h

theorem not_holds_of_count (name : Text) (ps : List Text) (r : Text)
    (hname : ∀ c ∈ name, blank c = false ∧ c ≠ '=' ∧ c ≠ ';') (hlen : ps.length = 8)
    (hps : ∀ p ∈ ps, ∀ c ∈ p, blank c = false ∧ c ≠ ';') (hr : ∀ c ∈ r, blank c = false)
    (hc : 246 < r.count ';') :
    ¬ (received (command name (ps ++ [r]))).Holds name (ps ++ [r]) := by
  intro h
  cases ps with
  | nil => simp at hlen
  | cons p ps =>
    simp only [List.length_cons] at hlen
    obtain ⟨fields, q, he, hq⟩ := reading_command hname hps (by omega)
    have hn := hq.next (by omega)
    have hcmd : command name (p :: ps ++ [r]) = command name (p :: ps) ++ ';' :: r := by
      simp [command, intercalate_cons]
    have ho := overflow_text r _ hn.receiving hr (by rw [hn.count]; omega)
    have h8 : (fields ++ [q]).length = 8 := by simp [he, hlen]
    have hp : (getCommand (received (command name (p :: ps))) ';').P 8 = [] := by
      rw [hn.P 8, getD_concat, List.getD_eq_default _ _ (by rw [h8]; decide)]
      simp
    have h9 := h.P 8
    rw [hcmd] at h9
    have hd : (p :: ps ++ [r]).getD 8 [] = r := by
      rw [getD_concat]
      simp [hlen]
    rw [show ((8 : Fin 9) : Nat) = 8 from rfl, hd] at h9
    rw [hp] at ho
    simp only [received, List.foldl_append, List.foldl_cons] at h9 ho
    rw [h9] at ho
    simp at ho

/-- A command is read back as it was written, as long as its last parameter has no more semicolons
than the byte can count. -/
theorem received_iff (name : Text) (ps : List Text) (rest : Option Text)
    (hname : ∀ c ∈ name, blank c = false ∧ c ≠ '=' ∧ c ≠ ';') (hlen : ps.length ≤ 8)
    (hps : ∀ p ∈ ps, ∀ c ∈ p, blank c = false ∧ c ≠ ';')
    (hrest : ∀ r ∈ rest, ps.length = 8 ∧ ∀ c ∈ r, blank c = false) :
    (received (command name (ps ++ rest.toList))).Holds name (ps ++ rest.toList) ↔
      ∀ r ∈ rest, r.count ';' ≤ 246 := by
  constructor
  · intro h r hr
    obtain rfl : rest = some r := hr
    obtain ⟨h8, hb⟩ := hrest r rfl
    by_contra hc
    exact not_holds_of_count name ps r hname h8 hps hb (by omega) h
  · exact holds_of_count hname hlen hps hrest

theorem received_facename :
    (received (command "facename".toList (["0".toList, "A=?".toList] ++ [[], [], [], [], [], []] ++
      (some "x;y".toList).toList))).Holds "facename".toList
        (["0".toList, "A=?".toList] ++ [[], [], [], [], [], []] ++ (some "x;y".toList).toList) :=
  (received_iff _ _ (some "x;y".toList) (by simp [blank]) (by simp) (by simp [blank])
    (by simp [blank])).2 (by decide)

/-- A ninth parameter of 247 semicolons loses one. -/
theorem received_overflow :
    ¬ ∀ (name : Text) (ps : List Text) (rest : Option Text), name ≠ [] →
      (∀ c ∈ name, blank c = false ∧ c ≠ '=' ∧ c ≠ ';') → ps.length ≤ 8 →
      (∀ p ∈ ps, ∀ c ∈ p, blank c = false ∧ c ≠ ';') →
      (∀ r ∈ rest, ps.length = 8 ∧ ∀ c ∈ r, blank c = false) →
      (received (command name (ps ++ rest.toList))).Holds name (ps ++ rest.toList) := by
  intro h
  have hb : ∀ c ∈ List.replicate 247 ';', blank c = false := by
    intro c hc
    rw [List.eq_of_mem_replicate hc]
    rfl
  refine not_holds_of_count ['x'] (List.replicate 8 []) (List.replicate 247 ';')
    (by simp [blank]) (by simp) (by simp) hb (by rw [List.count_replicate_self]; simp) ?_
  refine h ['x'] (List.replicate 8 []) (some (List.replicate 247 ';')) (by simp) (by simp [blank])
    (by simp) (by simp) fun r hr => ?_
  obtain rfl : List.replicate 247 ';' = r := Option.some.inj hr
  exact ⟨by simp, hb⟩

end Cam
