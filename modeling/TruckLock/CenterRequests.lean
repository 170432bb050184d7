import TruckLock.CenterUnlock
import TruckLock.CenterAnswers
import TruckLock.CenterLost

/-!
# Requests are answered once

The flags as a function of the log: a request is outstanding from the first
event that raises it to the command that answers it. No command goes out
otherwise, except for the one that a new connection is owed.
-/
namespace Center

open Firmware Spec History

/-- The event raises the flag of the request. -/
def Event.raises (r : Request) : Event → Bool
  | .alcohol _ => r = .isAlcohol
  | .notAlcohol _ => r = .notAlcohol
  | .expired | .appBlock _ => r = .blockNow
  | .appUnblock _ => r = .unblockNow
  | _ => false

def outstanding (r : Request) : List Event → Bool
  | [] => false
  | .boot :: _ => false
  | .broadcast _ q :: l => q ≠ some r && outstanding r l
  | e :: l => e.raises r || outstanding r l

/-- A client has connected and has not been told the state of the lock. -/
def connecting : List Event → Bool
  | [] => false
  | .boot :: _ => false
  | .broadcast _ _ :: _ => false
  | .frame payload :: _ => payload = "/"
  | _ :: l => connecting l

/-- A command is one that was asked for. -/
def Due (e : Event) (l : List Event) : Prop :=
  ∀ c q, e = .broadcast c q →
    (∃ r, q = some r ∧ c = r.command ∧ outstanding r l = true) ∨ q = none ∧ connecting l = true

def Event.command : Event → Option (Command × Option Request)
  | .broadcast c r => some (c, r)
  | _ => none

/-- The commands of a log, newest first. -/
def commands (l : List Event) : List (Command × Option Request) := l.filterMap Event.command

theorem outstanding_say {r : Request} {e : Event} (l : List Event) (hb : e ≠ .boot)
    (he : ∀ c q, e ≠ .broadcast c q) : outstanding r (e :: l) = (e.raises r || outstanding r l) := by
  cases e <;> first | rfl | exact absurd rfl hb | exact absurd rfl (he _ _)

namespace Requests

def spec : Spec Env Lock where
  ok _ _ _ := True
  good v w := ∀ e, w.hist = e :: v.hist → Due e v.hist
  good_refl v e h := by simp at h
  inv v := ∀ r, outstanding r v.hist = true → v.pending r = true
  top _ := True
  fin _ := True

/-- The flags are what the log says. -/
def Told (v : Lock) : Prop := ∀ r, v.pending r = outstanding r v.hist

variable {v w : Lock}

theorem Told.inv (hv : Told v) : spec.inv v := fun r h => (hv r).trans h

theorem good_same (h : w.hist = v.hist) : spec.good v w := by
  intro e he
  simp [h] at he

theorem good_say {e : Event} (h : w.hist = e :: v.hist) (he : Due e v.hist) : spec.good v w := by
  intro x hx
  rw [h] at hx
  rw [← (List.cons.inj hx).1]
  exact he

theorem due_of {e : Event} {l : List Event} (he : ∀ c q, e ≠ .broadcast c q) : Due e l :=
  fun c q h => absurd h (he c q)

/-- An event that is no command and raises what the step does. -/
theorem Told.say {e : Event} (hv : Told v) (hb : e ≠ .boot) (he : ∀ c q, e ≠ .broadcast c q)
    (hh : w.hist = e :: v.hist) (hp : ∀ r, w.pending r = (e.raises r || v.pending r)) :
    spec.good v w ∧ Told w := by
  refine ⟨good_say hh (due_of he), fun r => ?_⟩
  rw [hp, hh, outstanding_say _ hb he, hv r]

theorem Told.chain_say {e : Event} (hv : Told v) (hb : e ≠ .boot) (he : ∀ c q, e ≠ .broadcast c q)
    (hr : ∀ r, e.raises r = false) : spec.Chain [Lock.saying e] Told v :=
  chain_to hv.inv fun _ _ => hv.say hb he rfl fun r => by simp [hr]

theorem Told.chain_send {e : Event} (hv : Told v) (hb : e ≠ .boot) (he : ∀ c q, e ≠ .broadcast c q)
    (hr : ∀ r, e.raises r = false) : spec.Chain [Lock.sending e] Told v := by
  refine chain_sending hv.inv ?_
  rintro i w (rfl | rfl) -
  · exact hv.say hb he rfl fun r => by simp [hr]
  · exact ⟨spec.good_refl w, hv⟩

theorem Told.raise {r : Request} {e : Event} (hv : Told v) (hb : e ≠ .boot)
    (he : ∀ c q, e ≠ .broadcast c q) (hr : ∀ q, e.raises q = decide (q = r)) :
    spec.good v ((v.put r true).say e) ∧ Told ((v.put r true).say e) :=
  hv.say hb he rfl fun q => by by_cases h : q = r <;> simp [hr, h]

theorem Told.chain_raise {r : Request} {e : Lock → Event} (hv : Told v) (hb : e v ≠ .boot)
    (he : ∀ c q, e v ≠ .broadcast c q) (hr : ∀ q, (e v).raises q = decide (q = r)) :
    spec.Chain [Lock.raising r e] Told v :=
  chain_to hv.inv fun _ _ => hv.raise hb he hr

theorem kept : Kept spec Told where
  inv _ hv := hv.inv
  loosen v hv := by
    refine ⟨hv.inv, ?_⟩
    rintro i _ ⟨n, b, rfl⟩ -
    exact ⟨good_same rfl, hv⟩
  onV1 := onV1_of_steps (fun _ _ hv => hv.chain_say (by simp) (by simp) fun _ => rfl)
    (fun _ _ hv => hv.chain_send (by simp) (by simp) fun _ => rfl)
    (fun _ hv _ => hv.chain_raise (by simp) (by simp) fun _ => rfl)
    (fun _ hv _ => hv.chain_raise (by simp) (by simp) fun _ => rfl)

/-- The flag is cleared with the command on top of the log. -/
theorem Told.chain_answering {r : Request} (hv : Told v) (hr : v.pending r = true) :
    spec.Chain (Lock.answering r) Told v := by
  have hafter : ∀ q, outstanding q (.broadcast r.command (some r) :: v.hist) = (decide (q ≠ r) && v.pending q) := by
    intro q
    rw [hv q]
    simp [outstanding, eq_comm]
  have hinv : ∀ w : Lock, w.hist = .broadcast r.command (some r) :: v.hist → w.pending = v.pending →
      spec.inv w := by
    intro w hh hp q hq
    rw [hh, hafter, Bool.and_eq_true] at hq
    rw [hp, hq.2]
  refine ⟨hv.inv, ?_⟩
  rintro i _ rfl -
  refine ⟨good_say rfl fun c q h => ?_, hinv _ rfl rfl, ?_⟩
  · obtain ⟨rfl, rfl⟩ : r.command = c ∧ some r = q := by simpa using h
    exact .inl ⟨r, rfl, rfl, (hv r).symm.trans hr⟩
  rintro i _ rfl -
  refine ⟨good_same rfl, hinv _ rfl rfl, ?_⟩
  rintro i _ rfl -
  refine ⟨good_same rfl, hinv _ rfl rfl, ?_⟩
  rintro i _ rfl -
  refine ⟨good_same rfl, fun q => ?_⟩
  refine Eq.trans ?_ (hafter q).symm
  by_cases h : q = r <;> simp [h]

theorem Told.chain_connect (hv : Told v) :
    spec.Chain [Lock.saying (.frame "/"), Lock.resync v.timedownMinute] Told v := by
  refine chain_step (hv.chain_say (by simp) (by simp) fun _ => rfl) ?_
  rintro i _ rfl hw
  refine chain_to hw.inv fun _ _ => ⟨good_say rfl fun c q h => ?_, fun r => ?_⟩
  · obtain ⟨-, rfl⟩ : _ ∧ none = q := by simpa using h
    exact .inr ⟨rfl, rfl⟩
  · refine (hw r).trans ?_
    simp [outstanding, Event.raises]

theorem Told.chain_expire (hv : Told v) : spec.Chain (Lock.ticking :: Lock.expiring) Told v := by
  refine ⟨hv.inv, ?_⟩
  rintro i _ rfl -
  have hw : Told { v with timedownMinute := v.timedownMinute - 1 } := hv
  refine ⟨good_same rfl, chain_step (hw.chain_raise (by simp) (by simp) fun _ => rfl) ?_⟩
  rintro i _ rfl hw
  exact chain_to hw.inv fun _ _ => ⟨good_same rfl, hw⟩

theorem Told.chain_judging {r : Request} {e : Verdict → Event} {ok : Verdict → Prop} (hv : Told v)
    (hb : ∀ x, e x ≠ .boot) (he : ∀ x c q, e x ≠ .broadcast c q)
    (hr : ∀ x q, (e x).raises q = decide (q = r)) : spec.Chain [Lock.judging r e ok] Told v := by
  refine ⟨hv.inv, ?_⟩
  rintro i _ ⟨x, -, -, rfl⟩ -
  exact hv.raise (hb x) (he x) (hr x)

theorem maintained : Maintained spec fun _ => Told where
  kept _ := kept
  top _ _ := trivial
  initial _ _ := rfl
  boot _ _ _ _ := rfl
  wifi _ _ hv := chain_to hv.inv fun _ _ => ⟨good_same rfl, hv⟩
  block _ hv := chain_to hv.inv fun _ _ => ⟨good_same rfl, hv⟩
  tell _ hv := hv.chain_send (by simp) (by simp) fun _ => rfl
  started _ hv := hv
  answer _ _ hv _ hr := hv.chain_answering hr
  report _ _ hv := hv.chain_send (by simp) (by simp) fun _ => rfl
  lost _ hv := hv.chain_say (by simp) (by simp) fun _ => rfl
  frame _ _ hv _ := hv.chain_say (by simp) (by simp) fun _ => rfl
  connect _ hv := hv.chain_connect
  tick _ hv _ _ := chain_to hv.inv fun _ _ => ⟨good_same rfl, hv⟩
  expire _ hv _ := hv.chain_expire
  drunk _ hv _ := hv.chain_judging (by simp) (by simp) fun _ _ => rfl
  sober _ hv _ := hv.chain_judging (by simp) (by simp) fun _ _ => rfl

theorem along (P : Platform) (flash : Nat → UInt8) (xs : Run) :
    (device P).Along (fun _ c d => Machine.Always (spec.on State.lock) c ∧
      Lock.Moved spec c.state.lock d.state.lock ∧ Machine.Always (spec.on State.lock) d) xs
      ((device P).start (powerOn flash)) := by
  refine maintained.along P flash xs (Along.imp (along_grew P flash xs) ?_)
  intro x c _
  cases x <;> trivial

/-- After the branch of `r` in a call that started with `e`; `m` is what follows the command. -/
structure Settled (r : Request) (e v : Lock) (m : List Event) : Prop where
  hist : v.hist = m ++ if e.pending r then .broadcast r.command (some r) :: e.hist else e.hist
  quiet : commands m = []
  done : v.pending r = false

variable {e : Lock} {r : Request} {m : List Event} {Q : Lock → Prop} (P : Platform)

theorem Settled.say {d : Event} (h : Settled r e v m) (hd : d.command = none)
    (hh : w.hist = d :: v.hist) (hp : w.pending r = v.pending r) : ∃ m, Settled r e w m := by
  refine ⟨d :: m, by rw [hh, h.hist]; rfl, ?_, hp.trans h.done⟩
  rw [commands, List.filterMap_cons, hd]
  exact h.quiet

theorem chain_report (k : Int) : (∃ m, Settled r e v m) → (call Q).Chain
    [Lock.sending (.virtualWrite 1 [.int k])] (fun w => ∃ m, Settled r e w m) v := by
  rintro ⟨m, h⟩
  refine chain_sending trivial ?_
  rintro i w (rfl | rfl) -
  · exact ⟨trivial, h.say (d := .virtualWrite 1 [.int k]) rfl rfl rfl⟩
  · exact ⟨trivial, m, h⟩

/-- After the event of a new connection. -/
def Resynced (e v : Lock) (m : List Event) : Prop :=
  commands m = [] ∧ ∃ c, v.hist = m ++ .broadcast c none :: .frame "/" :: e.hist

theorem Resynced.say {d : Event} (h : Resynced e v m) (hd : d.command = none)
    (hh : w.hist = d :: v.hist) : ∃ m, Resynced e w m := by
  obtain ⟨hm, c, hv⟩ := h
  refine ⟨d :: m, ?_, c, by rw [hh, hv]; rfl⟩
  rw [commands, List.filterMap_cons, hd]
  exact hm

end Requests

end Center
