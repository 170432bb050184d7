import TruckLock.CenterUnlock
import TruckLock.RelayLink
import Mathlib.Data.List.Induction

/-!
# Who opened the relay

The relay follows the commands that reach it, and starts closed. Whatever is
lost, repeated or reset on the way, a relay that is open has been told so by
Center since its own last reset, and behind that command stands a passed test
or an unlocking by the app.
-/
namespace Center

open Firmware

/-- A request to unlock that has been answered; it had been raised since the last reset. -/
def Warranted (log : List Event) : Prop :=
  ∃ r later earlier, (r = .notAlcohol ∨ r = .unblockNow) ∧
    log = later ++ .broadcast r.command (some r) :: earlier ∧ Raised r earlier

theorem Warranted.suffix {l m : List Event} (h : Warranted l) (hs : l <:+ m) : Warranted m := by
  obtain ⟨r, later, earlier, hr, rfl, hra⟩ := h
  obtain ⟨newer, rfl⟩ := hs
  exact ⟨r, newer ++ later, earlier, hr, (List.append_assoc _ _ _).symm, hra⟩

theorem warranted_of_answering {r : Request} {l : List Event} (hr : r = .notAlcohol ∨ r = .unblockNow)
    (h : Answering r l) : Warranted l := by
  obtain ⟨earlier, ⟨later, hl, -⟩, hra⟩ := h
  exact ⟨r, later, earlier, hr, hl, hra⟩

/-- Why Center sends a command. -/
structure Grounds (c : Command) (r : Option Request) (log : List Event) : Prop where
  locks : c.locks = false
  grounds : r = some .notAlcohol ∧ Raised .notAlcohol log ∨ r = some .unblockNow ∧ Raised .unblockNow log ∨
    r = none ∧ Warranted log

section

variable (P : Platform)

/-- Each step of a run is a move of the lock that logs one event at most. -/
theorem along_moved (flash : Nat → UInt8) (xs : Run) :
    (device P).Along (fun _ c d => Grew c.state d.state ∧ Lock.Moved Unlock.spec c.state.lock d.state.lock) xs
      ((device P).start (powerOn flash)) := by
  have hm := Unlock.maintained.along P flash xs (Along.imp (along_grew P flash xs) ?_)
  · exact ((along_grew P flash xs).and hm).imp fun _ _ h => ⟨h.1, h.2.2.1⟩
  · intro x c _
    cases x <;> trivial

/-- An unlocked truck has a warrant. -/
def Held (s : State) : Prop := s.BLOCK = false → Warranted s.log

theorem held_step {s t : State} (h : Held s) (hj : Justified s t) : Held t := by
  intro ht
  cases hs : s.BLOCK with
  | false => exact (h hs).suffix hj.grew.suffix
  | true =>
    rcases hj.change hs ht with ha | ha
    · exact (warranted_of_answering (.inl rfl) ha).suffix hj.grew.suffix
    · exact (warranted_of_answering (.inr rfl) ha).suffix hj.grew.suffix

/-- Throughout a run, an unlocking command has its grounds. -/
theorem along_grounds (flash : Nat → UInt8) (xs : Run) :
    (device P).Along (fun _ c d => ∀ cmd r, d.state.log = .broadcast cmd r :: c.state.log → cmd.locks = false →
      Grounds cmd r c.state.log) xs ((device P).start (powerOn flash)) := by
  have hj : (device P).Along (fun _ c d => Justified c.state d.state) xs ((device P).start (powerOn flash)) :=
    (along_moved P flash xs).imp fun _ _ h => justified_of_moved h.1 h.2
  have hh := hj.keeps (I := fun c => Held c.state) (fun h => by simp [Machine.start, powerOn] at h)
    fun _ _ hc h => held_step hc h
  refine (hj.and hh).imp fun x c h cmd r hl hc => ⟨hc, ?_⟩
  rcases h.1.command cmd r hl hc with ⟨hr, -, hra⟩ | ⟨hr, -, hra⟩ | ⟨hr, -, hb, -⟩
  · exact .inl ⟨hr, hra⟩
  · exact .inr (.inl ⟨hr, hra⟩)
  · exact .inr (.inr ⟨hr, h.2.1 hb⟩)

end

end Center

namespace RelayLink

open Firmware Center

variable {P : Platform} {flash : Nat → UInt8}

theorem after_concat (ms : List Move) (m : Move) :
    Net.after P flash (ms ++ [m]) = (Net.after P flash ms).step P m := by
  rw [Net.after, List.foldl_append]
  rfl

theorem hear_relay (join : Bool) (n : Net) (e : Event) : (n.hear join e).relay = n.relay := by
  cases e with
  | frame payload =>
    simp only [Net.hear]
    split <;> rfl
  | broadcast c r =>
    simp only [Net.hear]
    split <;> rfl
  | _ => rfl

theorem stepCenter_relay (x : Choice Env Outside) (join : Bool) (n : Net) :
    (n.stepCenter P x join).relay = n.relay := by
  simp only [Net.stepCenter]
  split
  · split
    · exact hear_relay _ _ _
    · rfl
  · rfl

/-- The log of Center only grows. -/
theorem log_suffix (before later : List Move) :
    (Net.after P flash before).center.state.log <:+ (Net.after P flash (before ++ later)).center.state.log := by
  have hx := along_grew P flash (choices before ++ choices later)
  rw [Machine.along_append] at hx
  have hend : after P flash (choices before ++ choices later) =
      (device P).exec (choices later) (after P flash (choices before)) := Machine.exec_append _ _ _ _
  rw [after_center, after_center, choices_append, hend]
  exact hx.2.invariant (I := fun c => (after P flash (choices before)).state.log <:+ c.state.log)
    (List.suffix_refl _) fun _ _ h hg => h.trans hg.suffix

theorem grounds_of_sent {before : List Move} {x : Choice Env Outside} {join : Bool} {c : Command} {r : Option Request}
    (hs : (Net.after P flash (before ++ [.center x join])).center.state.log =
      .broadcast c r :: (Net.after P flash before).center.state.log) (hc : c.locks = false) :
    Grounds c r (Net.after P flash before).center.state.log := by
  have hx := along_grounds P flash (choices before ++ [x])
  rw [Machine.along_append] at hx
  rw [after_concat, step_center, after_center] at hs
  rw [after_center]
  exact hx.2.1 c r hs hc

theorem grew_after (ms : List Move) (x : Choice Env Outside) :
    Grew (Net.after P flash ms).center.state ((device P).step x (Net.after P flash ms).center).state := by
  have hx := along_grew P flash (choices ms ++ [x])
  rw [Machine.along_append] at hx
  rw [after_center]
  exact hx.2.1

/-- The texts of the commands among the events, oldest first. -/
def texts : List Event → List String
  | [] => []
  | .broadcast c _ :: l => texts l ++ [c.text]
  | _ :: l => texts l

/-- What a move does to the frames in flight. -/
inductive Flies (n : Net) : Net → Prop
  | lost {n' : Net} (hq : n'.queue = []) : Flies n n'
  | kept {n' : Net} (hl : n'.center.state.log = n.center.state.log) (hq : n'.queue = n.queue) : Flies n n'
  | other {n' : Net} (e : Event) (hl : n'.center.state.log = e :: n.center.state.log) (he : texts [e] = [])
      (hq : n'.queue = n.queue) : Flies n n'
  | sent {n' : Net} (c : Command) (r : Option Request)
      (hl : n'.center.state.log = .broadcast c r :: n.center.state.log) (hq : n'.queue = n.queue ++ [c.text]) :
    Flies n n'
  | taken {n' : Net} (t : String) (hl : n'.center.state.log = n.center.state.log) (hq : n.queue = t :: n'.queue) :
    Flies n n'

theorem flies_hear {n : Net} {c : Config Center.State Env} {e : Event} (join : Bool)
    (hl : c.state.log = e :: n.center.state.log) (hd : n.link = .down → n.queue = []) :
    Flies n ({ n with center := c }.hear join e) := by
  cases e with
  | boot => exact .lost rfl
  | frame payload =>
    simp only [Net.hear]
    split
    · exact .lost rfl
    · exact .other _ hl rfl rfl
  | broadcast k r =>
    simp only [Net.hear]
    split
    · exact .sent k r hl rfl
    · rename_i hu
      refine .lost (hd ?_)
      cases h : n.link with
      | down => rfl
      | up => exact absurd h hu
  | _ => exact .other _ hl rfl rfl

theorem flies_relay (n : Net) (r : Relay.State) : Flies n { n with relay := r } := .kept rfl rfl

theorem flies_step {n : Net} (m : Move) (hd : n.link = .down → n.queue = [])
    (hg : ∀ x join, m = .center x join → Grew n.center.state ((device P).step x n.center).state) :
    Flies n (n.step P m) := by
  cases m with
  | center x join =>
    simp only [Net.step, Net.stepCenter]
    rcases hg x join rfl with hg | ⟨e, hg⟩
    · rw [hg, if_neg (lt_irrefl _)]
      exact .kept hg rfl
    · rw [hg, if_pos (by simp)]
      exact flies_hear join hg hd
  | deliver =>
    simp only [Net.step]
    split
    · rename_i t q hl hq
      exact .taken t rfl hq
    · exact .kept rfl rfl
  | notice lost => exact flies_relay n _
  | relayLoop ms =>
    rw [step_relayLoop]
    exact flies_relay n _
  | drop => exact .lost rfl
  | relayReset clock => exact .lost rfl

/-- Nothing is in flight without a connection. -/
def Grounded (n : Net) : Prop := n.link = .down → n.queue = []

theorem grounded_hear {n : Net} (join : Bool) (e : Event) (h : Grounded n) : Grounded (n.hear join e) := by
  cases e with
  | boot => exact fun _ => rfl
  | frame payload =>
    simp only [Net.hear]
    split
    · exact fun _ => rfl
    · exact h
  | broadcast c r =>
    simp only [Net.hear]
    split
    · rename_i hu
      exact fun hd => absurd (hu.symm.trans hd) (by simp)
    · exact h
  | _ => exact h

theorem grounded_relay {n : Net} (r : Relay.State) (h : Grounded n) : Grounded { n with relay := r } := h

theorem grounded_step {n : Net} (m : Move) (h : Grounded n) : Grounded (n.step P m) := by
  cases m with
  | center x join =>
    simp only [Net.step, Net.stepCenter]
    split
    · split
      · exact grounded_hear join _ h
      · exact h
    · exact h
  | deliver =>
    simp only [Net.step]
    split
    · rename_i hl hq
      exact fun hd => absurd (hl.symm.trans hd) (by simp)
    · exact h
  | notice lost => exact grounded_relay _ h
  | relayLoop ms => exact grounded_relay _ h
  | drop => exact fun _ => rfl
  | relayReset clock => exact fun _ => rfl

theorem grounded_after (ms : List Move) : Grounded (.after P flash ms) := by
  induction ms using List.reverseRecOn with
  | nil => exact fun _ => rfl
  | append_singleton ms m ih =>
    rw [after_concat]
    exact grounded_step m ih

theorem flies_after (ms : List Move) (m : Move) : Flies (.after P flash ms) (.after P flash (ms ++ [m])) := by
  rw [after_concat]
  exact flies_step m (grounded_after ms) fun x _ _ => grew_after ms x

theorem texts_append (l m : List Event) : texts (l ++ m) = texts m ++ texts l := by
  induction l with
  | nil => simp [texts]
  | cons e l ih =>
    cases e
    all_goals simp [texts, ih]

theorem during_append_log {s t : Center.State} (h : s.log <:+ t.log) {u : Center.State} {m : List Event}
    (hu : u.log = m ++ t.log) : s.during u = m ++ s.during t := by
  obtain ⟨l, hl⟩ := h
  have hn : (m ++ (l ++ s.log)).length - s.log.length = (m ++ l).length := by
    simp only [List.length_append]
    omega
  rw [State.during, State.during, hu, ← hl, hn, ← List.append_assoc, List.take_left]
  simp

/-- Center broadcasts the command at a move behind `before`, and `rest` in the moves `mid` after it. -/
structure Sent (P : Platform) (flash : Nat → UInt8) (before : List Move) (x : Choice Env Outside) (join : Bool)
    (mid : List Move) (c : Command) (r : Option Request) (rest : List String) : Prop where
  broadcast : (Net.after P flash (before ++ [.center x join])).center.state.log =
    .broadcast c r :: (Net.after P flash before).center.state.log
  behind : texts ((Net.after P flash (before ++ [.center x join])).center.state.during
    (Net.after P flash (before ++ .center x join :: mid)).center.state) = rest

/-- The frame in flight is such a command. -/
def InFlight (P : Platform) (flash : Nat → UInt8) (ms : List Move) (t : String) (rest : List String) : Prop :=
  ∃ before x join mid c r, ms = before ++ .center x join :: mid ∧ (∀ clock, .relayReset clock ∉ mid) ∧ c.text = t ∧
    Sent P flash before x join mid c r rest

theorem InFlight.concat {ms : List Move} {t : String} {rest : List String} (h : InFlight P flash ms t rest) {m : Move}
    (hm : ∀ clock, m ≠ .relayReset clock) {l : List Event}
    (hl : (Net.after P flash (ms ++ [m])).center.state.log = l ++ (Net.after P flash ms).center.state.log) :
    InFlight P flash (ms ++ [m]) t (rest ++ texts l) := by
  obtain ⟨before, x, join, mid, c, r, rfl, hr, ht, hs⟩ := h
  have hmid : before ++ .center x join :: mid = before ++ [.center x join] ++ mid := by simp
  refine ⟨before, x, join, mid ++ [m], c, r, by simp, fun clock hc => ?_, ht, hs.broadcast, ?_⟩
  · rcases List.mem_append.1 hc with hc | hc
    · exact hr clock hc
    · exact hm clock (List.mem_singleton.1 hc).symm
  · have hsuffix := @log_suffix P flash (before ++ [.center x join]) mid
    rw [← hmid] at hsuffix
    rw [← hs.behind, ← texts_append, ← during_append_log hsuffix hl]
    simp

/-- So is each frame of a queue. -/
def Flying (P : Platform) (flash : Nat → UInt8) (ms : List Move) : List String → Prop
  | [] => True
  | t :: rest => InFlight P flash ms t rest ∧ Flying P flash ms rest

theorem Flying.concat {ms : List Move} {q : List String} (h : Flying P flash ms q) {m : Move}
    (hm : ∀ clock, m ≠ .relayReset clock) {l : List Event}
    (hl : (Net.after P flash (ms ++ [m])).center.state.log = l ++ (Net.after P flash ms).center.state.log)
    {k : List String} (hk : texts l = k) (hnew : Flying P flash (ms ++ [m]) k) : Flying P flash (ms ++ [m]) (q ++ k) := by
  induction q with
  | nil => exact hnew
  | cons t q ih => exact ⟨hk ▸ h.1.concat hm hl, ih h.2⟩

theorem center_of_log {ms : List Move} {m : Move} {e : Event}
    (h : (Net.after P flash (ms ++ [m])).center.state.log = e :: (Net.after P flash ms).center.state.log) :
    ∃ x join, m = .center x join := by
  rw [after_concat, step_center] at h
  cases m with
  | center x join => exact ⟨x, join, rfl⟩
  | _ => exact absurd h (List.cons_ne_self _ _).symm

theorem flying_after (ms : List Move) : Flying P flash ms (Net.after P flash ms).queue := by
  induction ms using List.reverseRecOn with
  | nil => trivial
  | append_singleton ms m ih =>
    by_cases hq : (Net.after P flash (ms ++ [m])).queue = []
    · rw [hq]
      trivial
    have hm : ∀ clock, m ≠ .relayReset clock := by
      rintro clock rfl
      exact hq (by rw [after_concat]; rfl)
    have hsame : ∀ l, (Net.after P flash (ms ++ [m])).center.state.log = l ++ (Net.after P flash ms).center.state.log →
        texts l = [] → ∀ {q}, Flying P flash ms q → Flying P flash (ms ++ [m]) q := by
      intro l hl ht q h
      simpa using h.concat hm hl ht trivial
    cases @flies_after P flash ms m with
    | lost h => exact absurd h hq
    | kept hl h =>
      rw [h]
      exact hsame [] hl rfl ih
    | other e hl he h =>
      rw [h]
      exact hsame [e] hl he ih
    | sent c r hl h =>
      rw [h]
      obtain ⟨x, join, rfl⟩ := center_of_log hl
      refine ih.concat hm (l := [.broadcast c r]) hl rfl ⟨⟨ms, x, join, [], c, r, rfl, by simp, rfl, hl, ?_⟩, trivial⟩
      simp [State.during, texts]
    | taken t hl h =>
      rw [h] at ih
      exact hsame [] hl rfl ih.2

/-- The command that Center broadcasts at a move behind `before` is the frame that the relay takes
behind `mid`, and it takes no other later. -/
structure LastFrame (P : Platform) (flash : Nat → UInt8) (before : List Move) (x : Choice Env Outside) (join : Bool)
    (mid later : List Move) (c : Command) (r : Option Request) (rest : List String) : Prop
    extends Sent P flash before x join mid c r rest where
  up : (Net.after P flash (before ++ .center x join :: mid)).link = .up
  queue : (Net.after P flash (before ++ .center x join :: mid)).queue = c.text :: rest
  kept : ∀ clock, .relayReset clock ∉ mid ++ later
  last : ∀ early rest, later = early ++ .deliver :: rest →
    (Net.after P flash (before ++ .center x join :: mid ++ .deliver :: early)).next = none

theorem LastFrame.concat {before : List Move} {x : Choice Env Outside} {join : Bool} {mid later : List Move} {c : Command}
    {r : Option Request} {rest : List String} (h : LastFrame P flash before x join mid later c r rest) {m : Move}
    (hm : ∀ clock, m ≠ .relayReset clock)
    (hd : m = .deliver → (Net.after P flash (before ++ .center x join :: mid ++ .deliver :: later)).next = none) :
    LastFrame P flash before x join mid (later ++ [m]) c r rest where
  toSent := h.toSent
  up := h.up
  queue := h.queue
  kept clock hc := by
    rw [← List.append_assoc] at hc
    rcases List.mem_append.1 hc with hc | hc
    · exact h.kept clock hc
    · exact hm clock (List.mem_singleton.1 hc).symm
  last early tail he := by
    rcases List.eq_nil_or_concat' tail with rfl | ⟨tail, m', rfl⟩
    · obtain ⟨rfl, hm⟩ := List.append_inj' he rfl
      exact hd (List.cons.inj hm).1
    · rw [← List.cons_append, ← List.append_assoc] at he
      exact h.last early tail (List.append_inj' he rfl).1

theorem lastFrame_after (ms : List Move) (hp : (Net.after P flash ms).relay.relayPin = true) :
    ∃ before x join mid later c r rest, ms = before ++ .center x join :: mid ++ .deliver :: later ∧ c.locks = false ∧
      LastFrame P flash before x join mid later c r rest := by
  induction ms using List.reverseRecOn with
  | nil => simp [Net.after, Net.start, Relay.setup] at hp
  | append_singleton ms m ih =>
    have hsame : (Net.after P flash ms).relay.relayPin = true → (∀ clock, m ≠ .relayReset clock) →
        (m = .deliver → (Net.after P flash ms).next = none) →
        ∃ before x join mid later c r rest, ms ++ [m] = before ++ .center x join :: mid ++ .deliver :: later ∧
          c.locks = false ∧ LastFrame P flash before x join mid later c r rest := by
      intro hp hm hd
      obtain ⟨before, x, join, mid, later, c, r, rest, rfl, hc, hl⟩ := ih hp
      exact ⟨before, x, join, mid, later ++ [m], c, r, rest, by simp, hc, hl.concat hm hd⟩
    rw [after_concat] at hp
    cases m with
    | center x join =>
      rw [Net.step, stepCenter_relay] at hp
      exact hsame hp (by simp) (by simp)
    | deliver =>
      simp only [Net.step] at hp
      split at hp
      · rename_i t q hl hq
        have hf := @flying_after P flash ms
        rw [hq] at hf
        obtain ⟨⟨before, x, join, mid, c, r, rfl, hkept, rfl, hs⟩, -⟩ := hf
        refine ⟨before, x, join, mid, [], c, r, q, rfl, ?_, hs, hl, hq, by simpa using hkept, by simp⟩
        rw [Relay.webSocketEvent_command] at hp
        simpa [Relay.drive] using hp
      · rename_i hno
        refine hsame hp (by simp) fun _ => ?_
        rw [Net.next]
        split
        · rename_i hu
          cases hq : (Net.after P flash ms).queue with
          | nil => rfl
          | cons t q => exact absurd hq (hno t q hu)
        · rfl
    | notice lost =>
      rw [step_notice] at hp
      exact hsame hp (by simp) (by simp)
    | relayLoop t =>
      rw [pin_relayLoop] at hp
      exact hsame hp (by simp) (by simp)
    | drop =>
      simp only [Net.step] at hp
      exact hsame hp (by simp) (by simp)
    | relayReset clock => simp [Net.step, Relay.setup] at hp

/-- The last frame that an open relay has got since its last reset is a command that Center had
broadcast, since then too, and with its grounds. -/
theorem open_on_grounds (P : Platform) (flash : Nat → UInt8) (ms : List Move)
    (h : (Net.after P flash ms).relay.relayPin = true) :
    ∃ before x join mid later c r rest, ms = before ++ .center x join :: mid ++ .deliver :: later ∧
      LastFrame P flash before x join mid later c r rest ∧ Grounds c r (Net.after P flash before).center.state.log := by
  obtain ⟨before, x, join, mid, later, c, r, rest, hms, hc, hl⟩ := lastFrame_after ms h
  exact ⟨before, x, join, mid, later, c, r, rest, hms, hl, grounds_of_sent hl.broadcast hc⟩

set_option maxRecDepth 10000 in
theorem open_on_grounds_unlocked :
    (Net.after bench (flashOf 5) unlockedRelay).relay.relayPin = true ∧
    ∃ before x join mid later c r rest, unlockedRelay = before ++ .center x join :: mid ++ .deliver :: later ∧
      LastFrame bench (flashOf 5) before x join mid later c r rest ∧
      Grounds c r (Net.after bench (flashOf 5) before).center.state.log :=
  have h : (Net.after bench (flashOf 5) unlockedRelay).relay.relayPin = true := by decide +kernel
  ⟨h, open_on_grounds bench (flashOf 5) unlockedRelay h⟩

end RelayLink
