import TruckLock.CenterLog
import TruckLock.CenterRuns

/-!
# The countdown and the last command

`BLOCK` and `timedownMinute` agree as long as no unlocking finds the stored
duration zero; then the last command that Center has sent since its reset
agrees with `BLOCK` too, up to a lock request that is still pending.
-/
namespace Center

open Firmware Spec

/-- The newest command since the last reset. -/
def lastCommand : List Event → Option Command
  | [] => none
  | .boot :: _ => none
  | .broadcast c _ :: _ => some c
  | _ :: l => lastCommand l

/-- The event on top of a log is an unlocking answer. -/
def unlockingAnswer : List Event → Bool
  | .broadcast c (some _) :: _ => !c.locks
  | _ => false

theorem lastCommand_cons {e : Event} (l : List Event) (hb : e ≠ .boot)
    (he : ∀ c r, e ≠ .broadcast c r) : lastCommand (e :: l) = lastCommand l := by
  cases e <;> first | rfl | exact absurd rfl hb | exact absurd rfl (he _ _)

theorem lastCommand_filter (l : List Event) : lastCommand (l.filter Event.onLock) = lastCommand l := by
  induction l with
  | nil => rfl
  | cons e l ih =>
    cases he : e.onLock with
    | true =>
      rw [List.filter_cons_of_pos he]
      cases e <;> first | rfl | exact ih
    | false =>
      rw [List.filter_cons_of_neg (by simp [he]), ih, lastCommand_cons]
      · rintro rfl
        simp [Event.onLock] at he
      · rintro c r rfl
        simp [Event.onLock] at he

namespace Countdown

/-- A command to a new connection is the state of the lock. -/
def Good (v w : Lock) : Prop := ∀ c, w.hist = .broadcast c none :: v.hist → c.locks = v.BLOCK

def spec : Spec Env Lock where
  ok _ v w := ∀ c r, w.hist = .broadcast c (some r) :: v.hist → c.locks = false → v.duration ≠ 0
  good := Good
  good_refl v c h := by simp at h
  inv v := (∀ r, v.pending r = false) → ∀ c, lastCommand v.hist = some c → c.locks = v.BLOCK
  top v := v.BLOCK = true ↔ v.timedownMinute = 0
  fin _ := True

structure Inv (p : Phase) (v : Lock) : Prop where
  countdown : v.BLOCK = true ↔ v.timedownMinute = 0
  command : ∀ c, lastCommand v.hist = some c →
    c.locks = v.BLOCK ∨ v.BLOCK = true ∧ v.pending .blockNow = true
  idle : p = .setup → v.timedownMinute = 0 ∧ lastCommand v.hist = none

variable {p : Phase} {v : Lock}

theorem Inv.inv (hv : Inv p v) : spec.inv v := by
  intro h c hc
  rcases hv.command c hc with h' | ⟨-, h'⟩
  · exact h'
  · simp [h] at h'

theorem good_of_same {w : Lock} (hh : w.hist = v.hist) : Good v w := fun c h => by simp [hh] at h

theorem good_of_say {w : Lock} {e : Event} (hh : w.hist = e :: v.hist)
    (he : ∀ c r, e ≠ .broadcast c r) : Good v w := fun c h =>
  absurd (List.cons.inj (hh.symm.trans h)).1 (he c none)

theorem Inv.say {e : Event} (hv : Inv p v) (hb : e ≠ .boot) (he : ∀ c r, e ≠ .broadcast c r) :
    Inv p (v.say e) := by
  have hl : lastCommand (v.say e).hist = lastCommand v.hist := lastCommand_cons _ hb he
  refine ⟨hv.countdown, ?_, ?_⟩
  · rw [hl]
    exact hv.command
  · rw [hl]
    exact hv.idle

theorem Inv.raise (hv : Inv p v) (r : Request) : Inv p (v.put r true) := by
  refine ⟨hv.countdown, fun c hc => ?_, hv.idle⟩
  rcases hv.command c hc with h | ⟨hb, h⟩
  · exact .inl h
  · exact .inr ⟨hb, by simp [Lock.put, h]⟩

theorem Inv.chain_say {e : Event} (hv : Inv p v) (hb : e ≠ .boot) (he : ∀ c r, e ≠ .broadcast c r) :
    spec.Chain [Lock.saying e] (Inv p) v :=
  chain_to hv.inv fun _ _ => ⟨good_of_say rfl he, hv.say hb he⟩

theorem Inv.chain_send {e : Event} (hv : Inv p v) (hb : e ≠ .boot) (he : ∀ c r, e ≠ .broadcast c r) :
    spec.Chain [Lock.sending e] (Inv p) v := by
  refine chain_sending hv.inv ?_
  rintro i w (rfl | rfl) -
  · exact ⟨good_of_say rfl he, hv.say hb he⟩
  · exact ⟨spec.good_refl w, hv⟩

theorem Inv.chain_raise {r : Request} {e : Lock → Event} (hv : Inv p v)
    (hb : e v ≠ .boot) (he : ∀ c q, e v ≠ .broadcast c q) :
    spec.Chain [Lock.raising r e] (Inv p) v :=
  chain_to hv.inv fun _ _ => ⟨good_of_say rfl he, (hv.raise r).say hb he⟩

theorem Inv.later {q : Phase} (hv : Inv p v) (hq : q ≠ .setup) : Inv q v :=
  ⟨hv.countdown, hv.command, fun h => absurd h hq⟩

theorem kept (p : Phase) : Kept spec (Inv p) where
  inv _ hv := hv.inv
  loosen v hv := by
    refine ⟨hv.inv, ?_⟩
    rintro i _ ⟨n, b, rfl⟩ -
    exact ⟨good_of_same rfl, hv.countdown, hv.command, hv.idle⟩
  onV1 := onV1_of_steps (fun _ _ hv => hv.chain_say (by simp) (by simp))
    (fun _ _ hv => hv.chain_send (by simp) (by simp))
    (fun _ hv _ => hv.chain_raise (by simp) (by simp))
    (fun _ hv _ => hv.chain_raise (by simp) (by simp))

/-- With a stored duration an answer sets both sides of the lock and says so. -/
theorem chain_answer (r : Request) (hv : Inv .rest v) (hr : v.pending r = true) :
    spec.Chain (Lock.answering r) (fun w => Inv (.after r w) w) v := by
  have hinv : ∀ w : Lock, w.pending = v.pending → spec.inv w := fun w hw h => by
    simp [hw ▸ h r] at hr
  refine ⟨hv.inv, ?_⟩
  rintro i _ rfl hok
  have hd : r.command.locks = false → v.duration ≠ 0 := hok r.command r rfl
  refine ⟨fun c h => by simp [Lock.say] at h, hinv _ rfl, ?_⟩
  rintro i _ rfl -
  refine ⟨good_of_same rfl, hinv _ rfl, ?_⟩
  rintro i _ rfl -
  refine ⟨good_of_same rfl, hinv _ rfl, ?_⟩
  rintro i _ rfl -
  refine ⟨good_of_same rfl, ?_, fun c hc => ?_, fun h => absurd h (Phase.after_ne_setup r _)⟩
  · cases hl : r.command.locks with
    | true => simp [Lock.put]
    | false => simpa [Lock.put, Lock.say] using hd hl
  · obtain rfl : r.command = c := by simpa [Lock.put, Lock.say, lastCommand] using hc
    exact .inl rfl

theorem chain_connect (hv : Inv .rest v) :
    spec.Chain [Lock.saying (.frame "/"), Lock.resync v.timedownMinute] (Inv .rest) v := by
  have hc : (if v.timedownMinute = 0 then Command.blockNow else .unblockNow).locks = v.BLOCK := by
    have h := hv.countdown
    by_cases h0 : v.timedownMinute = 0
    · simpa [h0, Command.locks] using h
    · simpa [h0, Command.locks] using h
  refine chain_step (hv.chain_say (by simp) (by simp)) ?_
  rintro i _ rfl hw
  refine chain_to hw.inv fun _ _ => ⟨fun c h => ?_, hv.countdown, fun c h => .inl ?_, by simp⟩
  · obtain ⟨rfl, -⟩ := Event.broadcast.inj (List.cons.inj h).1
    exact hc
  · obtain rfl := Option.some.inj h
    exact hc

theorem chain_expire (hv : Inv .rest v) (h1 : v.timedownMinute = 1) :
    spec.Chain (Lock.ticking :: Lock.expiring) (Inv .rest) v := by
  have hb : v.BLOCK = false := by
    have h := hv.countdown
    simpa [h1] using h
  refine ⟨hv.inv, ?_⟩
  rintro i _ rfl -
  refine ⟨good_of_same rfl, hv.inv, ?_⟩
  rintro i _ rfl -
  refine ⟨good_of_say rfl (by simp), fun h => ?_, ?_⟩
  · simpa [Lock.say, Lock.put] using h .blockNow
  rintro i _ rfl -
  refine ⟨good_of_same rfl, by simp [Lock.say, Lock.put, h1], fun c hc => .inr ⟨rfl, ?_⟩, by simp⟩
  simp [Lock.say, Lock.put]

theorem chain_tick (hv : Inv .rest v) (h0 : v.timedownMinute ≠ 0) (h1 : v.timedownMinute ≠ 1) :
    spec.Chain [Lock.ticking] (Inv .rest) v := by
  refine chain_to hv.inv fun _ _ => ⟨good_of_same rfl, ?_, hv.command, by simp⟩
  have h := hv.countdown
  constructor
  · exact fun hb => absurd (h.1 hb) h0
  · intro h
    have h : v.timedownMinute - 1 = 0 := h
    omega

theorem maintained : Maintained spec Inv where
  kept := kept
  top _ hv := hv.countdown
  initial n := ⟨by simp [Lock.initial], by simp [Lock.initial, lastCommand],
    by simp [Lock.initial, lastCommand]⟩
  boot v n _ := ⟨by simp [Lock.boot], by simp [Lock.boot, lastCommand],
    by simp [Lock.boot, lastCommand]⟩
  wifi b v hv := chain_to hv.inv fun _ _ => ⟨good_of_same rfl, hv.countdown, hv.command, hv.idle⟩
  block v hv := chain_to hv.inv fun _ _ => ⟨good_of_same rfl, by simpa using (hv.idle rfl).1,
    fun c hc => by simp [(hv.idle rfl).2] at hc, hv.idle⟩
  tell v hv := (hv.later (by simp)).chain_send (by simp) (by simp)
  started v hv := hv.later (by simp)
  answer r v hv _ hr := chain_answer r hv hr
  report r v hv := (hv.later (by simp)).chain_send (by simp) (by simp)
  lost v hv := hv.chain_say (by simp) (by simp)
  frame v payload hv _ := hv.chain_say (by simp) (by simp)
  connect v hv := chain_connect hv
  tick v hv h0 h1 := chain_tick hv h0 h1
  expire v hv h1 := chain_expire hv h1
  drunk v hv _ := by
    refine ⟨hv.inv, ?_⟩
    rintro i _ ⟨x, -, -, rfl⟩ -
    exact ⟨good_of_say rfl (by simp), (hv.raise .isAlcohol).say (by simp) (by simp)⟩
  sober v hv _ := by
    refine ⟨hv.inv, ?_⟩
    rintro i _ ⟨x, -, -, rfl⟩ -
    exact ⟨good_of_say rfl (by simp), (hv.raise .notAlcohol).say (by simp) (by simp)⟩

end Countdown

/-- An unlocking answer goes out while a duration is stored only. -/
def Fuelled (s t : State) : Prop :=
  s.log.length < t.log.length → unlockingAnswer t.log = true → s.duration ≠ 0

instance (s t : State) : Decidable (Fuelled s t) :=
  inferInstanceAs (Decidable (_ < _ → _ → _ ≠ _))

theorem Fuelled.ok {s t : State} (h : Fuelled s t) (hg : Grew s t) (i : Env) :
    Countdown.spec.ok i s.lock t.lock := by
  intro c r hh hc
  have hl := log_of_filter hg hh
  exact h (by simp [hl]) (by simp [hl, unlockingAnswer, hc])

theorem allowed_fuelled {P : Platform} {flash : Nat → UInt8} {xs : Run}
    (hx : (device P).Along (fun _ c d => Fuelled c.state d.state) xs
      ((device P).start (powerOn flash))) :
    (device P).Along (Allowed Countdown.spec) xs ((device P).start (powerOn flash)) := by
  refine (hx.and (along_grew P flash xs)).imp fun x c h => ?_
  cases x with
  | run i => exact h.1.ok h.2 i
  | outside r => trivial
  | reset => trivial

theorem reached_fuelled (P : Platform) (flash : Nat → UInt8) (xs : Run)
    (hx : (device P).Along (fun _ c d => Fuelled c.state d.state) xs
      ((device P).start (powerOn flash))) :
    Machine.Always (Countdown.spec.on State.lock) (after P flash xs) :=
  Countdown.maintained.reached P flash xs (allowed_fuelled hx)

/-- While every unlocking finds a duration, `BLOCK` and the countdown agree between two rounds of
`loop`, and a client that connects is told the state of the lock. -/
theorem block_iff_countdown (P : Platform) (flash : Nat → UInt8) (xs : Run)
    (hx : (device P).Along (fun _ c d => Fuelled c.state d.state) xs
      ((device P).start (powerOn flash))) :
    ((after P flash xs).code = [.forever (loop P)] →
      ((after P flash xs).state.BLOCK = true ↔ (after P flash xs).state.timedownMinute = 0)) ∧
    (device P).Along (fun _ c d => ∀ k, d.state.log = .broadcast k none :: c.state.log →
      k.locks = c.state.BLOCK) xs ((device P).start (powerOn flash)) := by
  refine ⟨fun hk => (reached_fuelled P flash xs hx).top hk, ?_⟩
  refine (Countdown.maintained.along P flash xs (allowed_fuelled hx)).imp fun x c h k hl => ?_
  have hh : (((device P).step x c).state.lock).hist = .broadcast k none :: c.state.lock.hist := by
    show List.filter Event.onLock _ = _
    rw [hl]
    rfl
  rcases h.2.1 with hg | ⟨n, hn⟩
  · exact hg k hh
  · simp [hn, Lock.boot] at hh

set_option maxRecDepth 10000 in
theorem block_iff_countdown_tapped :
    (after bench (flashOf 5) tapped).state.BLOCK = false ∧
    ((after bench (flashOf 5) tapped).state.BLOCK = true ↔
      (after bench (flashOf 5) tapped).state.timedownMinute = 0) :=
  ⟨by decide +kernel, (block_iff_countdown bench (flashOf 5) tapped (by decide +kernel)).1 rfl⟩

set_option maxRecDepth 10000 in
/-- With the cells of the duration 0, an unlocking by the app leaves no countdown. -/
theorem countdown_can_be_missing : ¬ ∀ (P : Platform) (flash : Nat → UInt8) (xs : Run),
    (after P flash xs).code = [.forever (loop P)] →
      ((after P flash xs).state.BLOCK = true ↔ (after P flash xs).state.timedownMinute = 0) := by
  intro h
  have h := h bench (flashOf 0) tapped rfl
  revert h
  decide +kernel

end Center
