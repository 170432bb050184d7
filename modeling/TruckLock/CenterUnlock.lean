import TruckLock.CenterLog
import TruckLock.CenterRuns
import TruckLock.History

/-!
# Who may unlock

Every flag that is up was raised since the last reset and has not been
answered, and a running countdown means an unlocked truck.
-/
namespace Center

open Firmware Spec History

/-- The events that raise the flag of a request. -/
def Raises : Request → Event → Prop
  | .isAlcohol, e => ∃ w, e = .alcohol w
  | .notAlcohol, e => ∃ w, e = .notAlcohol w ∧ w.isMatchFaceID = true ∧ w.Sober
  | .blockNow, e => e = .expired ∨ ∃ b, e = .appBlock b
  | .unblockNow, e => e = .appUnblock true

def Answers (r : Request) (e : Event) : Prop := ∃ c, e = .broadcast c (some r)

/-- Raised since the last reset, and not answered since. -/
def Raised (r : Request) : List Event → Prop :=
  Since (fun e => e ≠ .boot ∧ ¬ Answers r e) (Raises r)

namespace Unlock

/-- What a step of the lock may do. -/
structure Good (v w : Lock) : Prop where
  change : v.BLOCK = true → w.BLOCK = false → ∃ r h, r.command.locks = false ∧
    v.hist = .broadcast r.command (some r) :: h ∧ Raised r h
  command : ∀ c r, w.hist = .broadcast c r :: v.hist → c.locks = false →
    (∃ q, r = some q ∧ c = q.command ∧ Raised q v.hist) ∨
      (r = none ∧ c = .unblockNow ∧ v.BLOCK = false ∧ ∃ h, v.hist = .frame "/" :: h)

def spec : Spec Env Lock where
  ok _ _ _ := True
  good := Good
  good_refl v := ⟨fun h h' => by simp [h] at h', fun c r h => by simp at h⟩
  inv _ := True
  top _ := True
  fin _ := True

/-- The assertions of the phases. -/
structure Inv (p : Phase) (v : Lock) : Prop where
  raised : ∀ r, v.pending r = true → Raised r v.hist
  running : v.timedownMinute ≠ 0 → v.BLOCK = false
  idle : p = .setup → v.timedownMinute = 0

theorem raised_say {r : Request} {h : List Event} {e : Event} (hr : Raised r h) (hb : e ≠ .boot)
    (ha : ¬ Answers r e) : Raised r (e :: h) :=
  .inr ⟨⟨hb, ha⟩, hr⟩

variable {p : Phase} {v : Lock}

theorem good_same {w : Lock} (hb : w.BLOCK = v.BLOCK) (hh : w.hist = v.hist) : Good v w where
  change h h' := by simp [hb, h] at h'
  command c r h := by simp [hh] at h

/-- A new event that is no command. -/
theorem good_say {w : Lock} {e : Event} (hb : w.BLOCK = v.BLOCK) (hh : w.hist = e :: v.hist)
    (he : ∀ c r, e ≠ .broadcast c r) : Good v w where
  change h h' := by simp [hb, h] at h'
  command c r h := by
    rw [hh] at h
    exact absurd (List.cons.inj h).1 (he c r)

theorem inv_say {e : Event} (hv : Inv p v) (hb : e ≠ .boot) (he : ∀ c r, e ≠ .broadcast c r) :
    Inv p (v.say e) where
  raised r hr := raised_say (hv.raised r hr) hb fun ⟨c, hc⟩ => he c _ hc
  running := hv.running
  idle := hv.idle

theorem inv_raise {r : Request} {e : Event} (hv : Inv p v) (hr : Raises r e) (hb : e ≠ .boot)
    (he : ∀ c r, e ≠ .broadcast c r) : Inv p ((v.put r true).say e) where
  raised q hq := by
    by_cases h : q = r
    · subst h
      exact .inl hr
    · refine raised_say (hv.raised q ?_) hb fun ⟨c, hc⟩ => he c _ hc
      simpa [Lock.say, Lock.put, h] using hq
  running := hv.running
  idle := hv.idle

theorem chain_say {e : Event} (hv : Inv p v) (hb : e ≠ .boot) (he : ∀ c r, e ≠ .broadcast c r) :
    spec.Chain [Lock.saying e] (Inv p) v :=
  chain_to trivial fun _ _ => ⟨good_say rfl rfl he, inv_say hv hb he⟩

theorem chain_send {e : Event} (hv : Inv p v) (hb : e ≠ .boot) (he : ∀ c r, e ≠ .broadcast c r) :
    spec.Chain [Lock.sending e] (Inv p) v := by
  refine chain_sending trivial ?_
  rintro i w (rfl | rfl) -
  · exact ⟨good_say rfl rfl he, inv_say hv hb he⟩
  · exact ⟨spec.good_refl w, hv⟩

theorem chain_raise {r : Request} {e : Lock → Event} (hv : Inv p v) (hr : Raises r (e v))
    (hb : e v ≠ .boot) (he : ∀ c q, e v ≠ .broadcast c q) :
    spec.Chain [Lock.raising r e] (Inv p) v :=
  chain_to trivial fun _ _ => ⟨good_say rfl rfl he, inv_raise hv hr hb he⟩

theorem Inv.later {q : Phase} (hv : Inv p v) (hq : q ≠ .setup) : Inv q v :=
  ⟨hv.raised, hv.running, fun h => absurd h hq⟩

theorem kept (p : Phase) : Kept spec (Inv p) where
  inv _ _ := trivial
  loosen v hv := by
    refine ⟨trivial, ?_⟩
    rintro i _ ⟨n, b, rfl⟩ -
    exact ⟨good_same rfl rfl, hv.raised, hv.running, hv.idle⟩
  onV1 := onV1_of_steps (fun _ _ hv => chain_say hv (by simp) (by simp))
    (fun _ _ hv => chain_send hv (by simp) (by simp))
    (fun _ hv hb => chain_raise hv (by simp [Raises, hb]) (by simp) (by simp))
    (fun _ hv _ => chain_raise hv (.inr ⟨_, rfl⟩) (by simp) (by simp))

/-- The answer of a request that was raised. -/
theorem chain_answer (r : Request) (hv : Inv .rest v) (hr : v.pending r = true) :
    spec.Chain (Lock.answering r) (fun w => Inv (.after r w) w) v := by
  refine ⟨trivial, ?_⟩
  rintro i _ rfl -
  refine ⟨⟨fun h h' => by simp [Lock.say, h] at h', fun c q h _ => ?_⟩, trivial, ?_⟩
  · obtain ⟨rfl, rfl⟩ : r.command = c ∧ some r = q := by simpa [Lock.say] using h
    exact .inl ⟨r, rfl, rfl, hv.raised r hr⟩
  rintro i _ rfl -
  refine ⟨good_same rfl rfl, trivial, ?_⟩
  rintro i _ rfl -
  refine ⟨⟨fun _ h => ⟨r, v.hist, h, rfl, hv.raised r hr⟩, fun c q h => by simp at h⟩, trivial, ?_⟩
  rintro i _ rfl -
  refine ⟨good_same rfl rfl, fun q hq => ?_, fun h => ?_, fun h => ?_⟩
  · obtain ⟨hne, hq⟩ : q ≠ r ∧ v.pending q = true := by simpa [Lock.put, Lock.say] using hq
    refine raised_say (hv.raised q hq) (by simp) ?_
    rintro ⟨c, hc⟩
    obtain ⟨-, rfl⟩ : r.command = c ∧ r = q := by simpa using hc
    exact hne rfl
  · cases hl : r.command.locks with
    | true => simp [Lock.put, hl] at h
    | false => simp [Lock.put]
  · exact absurd h (Phase.after_ne_setup r _)

/-- The command of a new connection follows the countdown, hence `BLOCK`. -/
theorem chain_connect (hv : Inv .rest v) :
    spec.Chain [Lock.saying (.frame "/"), Lock.resync v.timedownMinute] (Inv .rest) v := by
  refine chain_step (chain_say hv (by simp) (by simp)) ?_
  rintro i _ rfl hw
  refine chain_to trivial fun _ _ => ⟨⟨fun h h' => absurd h (Bool.eq_false_iff.1 h'), fun c r h hl => ?_⟩,
    fun r hr => ?_, hv.running, by simp⟩
  · obtain ⟨rfl, rfl⟩ : (if v.timedownMinute = 0 then .blockNow else .unblockNow) = c ∧ none = r := by
      simpa [Lock.say] using h
    have h0 : v.timedownMinute ≠ 0 := by
      intro h0
      simp [h0, Command.locks] at hl
    exact .inr ⟨rfl, if_neg h0, hv.running h0, v.hist, rfl⟩
  · exact raised_say (hw.raised r hr) (by simp) (by simp [Answers])

theorem chain_expire (hv : Inv .rest v) (h1 : v.timedownMinute = 1) :
    spec.Chain (Lock.ticking :: Lock.expiring) (Inv .rest) v := by
  refine ⟨trivial, ?_⟩
  rintro i _ rfl -
  refine ⟨good_same rfl rfl, trivial, ?_⟩
  rintro i _ rfl -
  refine ⟨good_say rfl rfl (by simp), ?_⟩
  have hr := inv_raise (e := .expired) hv (r := .blockNow) (.inl rfl) (by simp) (by simp)
  exact chain_to trivial fun _ _ => ⟨⟨fun _ h => by simp at h, fun c r h => by simp at h⟩,
    hr.raised, fun h => absurd (by simp [Lock.say, Lock.put, h1]) h, by simp⟩

theorem maintained : Maintained spec Inv where
  kept := kept
  top _ _ := trivial
  initial n := ⟨by simp [Lock.initial], by simp [Lock.initial], by simp [Lock.initial]⟩
  boot v n _ := ⟨by simp [Lock.boot], by simp [Lock.boot], by simp [Lock.boot]⟩
  wifi b v hv := chain_to trivial fun _ _ => ⟨good_same rfl rfl, hv.raised, hv.running, hv.idle⟩
  block v hv := chain_to trivial fun _ _ => ⟨⟨fun _ h => by simp at h, fun c r h => by simp at h⟩,
    hv.raised, fun h => absurd (hv.idle rfl) h, hv.idle⟩
  tell v hv := chain_send (hv.later (by simp)) (by simp) (by simp)
  started v hv := hv.later (by simp)
  answer r v hv _ hr := chain_answer r hv hr
  report r v hv := chain_send (hv.later (by simp)) (by simp) (by simp)
  lost v hv := chain_say hv (by simp) (by simp)
  frame v payload hv _ := chain_say hv (by simp) (by simp)
  connect v hv := chain_connect hv
  tick v hv h0 _ := chain_to trivial fun _ _ => ⟨good_same rfl rfl, hv.raised, fun _ => hv.running h0, by simp⟩
  expire v hv h1 := chain_expire hv h1
  drunk v hv hm := by
    refine ⟨trivial, ?_⟩
    rintro i _ ⟨x, hx, hxm, rfl⟩ -
    exact ⟨good_say rfl rfl (by simp), inv_raise hv ⟨x, rfl⟩ (by simp) (by simp)⟩
  sober v hv hm := by
    refine ⟨trivial, ?_⟩
    rintro i _ ⟨x, hx, hxm, rfl⟩ -
    exact ⟨good_say rfl rfl (by simp), inv_raise hv ⟨x, rfl, hxm.trans hm, hx⟩ (by simp) (by simp)⟩

theorem raises_onLock {r : Request} {e : Event} (h : Raises r e) : e.onLock = true := by
  cases r with
  | isAlcohol =>
    obtain ⟨w, rfl⟩ := h
    rfl
  | notAlcohol =>
    obtain ⟨w, rfl, -⟩ := h
    rfl
  | blockNow =>
    obtain rfl | ⟨b, rfl⟩ := h
    all_goals rfl
  | unblockNow =>
    obtain rfl := h
    rfl

theorem raised_filter (r : Request) (log : List Event) :
    Raised r (log.filter Event.onLock) ↔ Raised r log := by
  refine since_filter (p := fun e => e ≠ .boot ∧ ¬ Answers r e) ?_ ?_ log
  · rintro e he
    refine ⟨?_, ?_⟩
    · rintro rfl
      simp [Event.onLock] at he
    · rintro ⟨c, rfl⟩
      simp [Event.onLock] at he
  · intro e he h
    simp [raises_onLock h] at he

end Unlock

/-- The newest event about the lock is `e`, and `earlier` is what was logged before it. -/
def Newest (e : Event) (earlier log : List Event) : Prop :=
  ∃ later, log = later ++ e :: earlier ∧ ∀ x ∈ later, x.onLock = false

/-- The request is being answered, by a command for which it had been raised. -/
def Answering (r : Request) (log : List Event) : Prop :=
  ∃ earlier, Newest (.broadcast r.command (some r)) earlier log ∧ Raised r earlier

/-- An unlocking step consumes a passed test or an unlocking by the app; a command may also
repeat to a new connection that the truck is unlocked. -/
structure Justified (s t : State) : Prop where
  grew : Grew s t
  change : s.BLOCK = true → t.BLOCK = false →
    Answering .notAlcohol s.log ∨ Answering .unblockNow s.log
  command : ∀ c r, t.log = .broadcast c r :: s.log → c.locks = false →
    r = some .notAlcohol ∧ c = .notDetectAlcohol ∧ Raised .notAlcohol s.log ∨
    r = some .unblockNow ∧ c = .unblockNow ∧ Raised .unblockNow s.log ∨
    r = none ∧ c = .unblockNow ∧ s.BLOCK = false ∧ ∃ earlier, Newest (.frame "/") earlier s.log

theorem newest_of_hist {s : State} {e : Event} {h : List Event} (hs : s.lock.hist = e :: h) :
    ∃ earlier, Newest e earlier s.log ∧ earlier.filter Event.onLock = h := by
  obtain ⟨later, earlier, he, hl, -, hf⟩ := List.filter_eq_cons_iff.1 hs
  exact ⟨earlier, ⟨later, he, fun x hx => by simpa using hl x hx⟩, hf⟩

theorem justified_of_moved {s t : State} (hg : Grew s t)
    (h : Lock.Moved Unlock.spec s.lock t.lock) : Justified s t := by
  refine ⟨hg, fun hs ht => ?_, fun c r hl hc => ?_⟩
  · rcases h with h | ⟨n, h⟩
    · obtain ⟨r, l, hr, hh, hra⟩ := h.change hs ht
      obtain ⟨earlier, hn, rfl⟩ := newest_of_hist hh
      rw [Unlock.raised_filter] at hra
      cases r with
      | isAlcohol => simp [Request.command, Command.locks] at hr
      | blockNow => simp [Request.command, Command.locks] at hr
      | notAlcohol => exact .inl ⟨earlier, hn, hra⟩
      | unblockNow => exact .inr ⟨earlier, hn, hra⟩
    · rw [← lock_BLOCK, h] at ht
      simp [Lock.boot] at ht
  · have hh : t.lock.hist = .broadcast c r :: s.lock.hist := by
      show t.log.filter Event.onLock = _
      rw [hl]
      rfl
    rcases h with h | ⟨n, h⟩
    · rcases h.command c r hh hc with ⟨q, rfl, rfl, hq⟩ | ⟨rfl, rfl, hb, l, hl⟩
      · have hq : Raised q s.log := (Unlock.raised_filter q s.log).1 hq
        cases q with
        | isAlcohol => simp [Request.command, Command.locks] at hc
        | blockNow => simp [Request.command, Command.locks] at hc
        | notAlcohol => exact .inl ⟨rfl, rfl, hq⟩
        | unblockNow => exact .inr (.inl ⟨rfl, rfl, hq⟩)
      · obtain ⟨earlier, hn, -⟩ := newest_of_hist hl
        exact .inr (.inr ⟨rfl, rfl, hb, earlier, hn⟩)
    · simp [h, Lock.boot] at hh

/-- In every run each unlocking of the truck and each unlocking command is justified. -/
theorem unlock_justified (P : Platform) (flash : Nat → UInt8) (xs : Run) :
    (device P).Along (fun _ c d => Justified c.state d.state) xs ((device P).start (powerOn flash)) := by
  have hm := Unlock.maintained.along P flash xs (Along.imp (along_grew P flash xs) ?_)
  · exact ((along_grew P flash xs).and hm).imp fun _ _ h => justified_of_moved h.1 h.2.2.1
  · intro x c _
    cases x <;> trivial

end Center
