import TruckLock.CenterAnswers

/-!
# Lock and unlock by the app

The handler of V1 does not look at the value that the app sends: it asks for
the opposite of `BLOCK`. Without a test, an expiry or a reset in between, the
next call of `updateWebsocket` turns the lock over exactly once, however many
writes have arrived.
-/
namespace Center

open Firmware Spec

namespace Toggle

/-- No test is pending, and a request of the app is for the opposite of `BLOCK`. -/
structure Quiet (v : Lock) : Prop where
  isAlcohol : v.pending .isAlcohol = false
  notAlcohol : v.pending .notAlcohol = false
  blockNow : v.pending .blockNow = true → v.BLOCK = false
  unblockNow : v.pending .unblockNow = true → v.BLOCK = true

/-- The command that the pending requests come to. -/
def command (e : Lock) : Option Command :=
  if e.pending .unblockNow then some .unblockNow
  else if e.pending .blockNow then some .blockNow else none

/-- After the answers of a call that started with `e` and has logged `n`. -/
structure Done (e v : Lock) (n : List Event) : Prop where
  hist : v.hist = n ++ e.hist
  last : lastCommand n = command e
  block : v.BLOCK = (command e).elim e.BLOCK Command.locks
  quiet : Quiet v

/-- Between the two answers. -/
structure Half (e v : Lock) (n : List Event) : Prop where
  hist : v.hist = n ++ e.hist
  last : lastCommand n = if e.pending .blockNow then some .blockNow else none
  block : v.BLOCK = if e.pending .blockNow then true else e.BLOCK
  pending : ∀ r, v.pending r = if r = .unblockNow then e.pending .unblockNow else false

variable {e v w : Lock} {n : List Event} {Q : Lock → Prop}

theorem Quiet.same (h : Quiet v) (hb : w.BLOCK = v.BLOCK) (hp : w.pending = v.pending) : Quiet w := by
  refine ⟨?_, ?_, ?_, ?_⟩ <;> simp only [hb, hp]
  · exact h.isAlcohol
  · exact h.notAlcohol
  · exact h.blockNow
  · exact h.unblockNow

/-- A write of the app asks for the opposite of `BLOCK`. -/
theorem Quiet.raise (h : Quiet v) (hb : w.BLOCK = v.BLOCK)
    (hp : w.pending = (v.put (if v.BLOCK then .unblockNow else .blockNow) true).pending) : Quiet w := by
  cases hv : v.BLOCK with
  | true =>
    refine ⟨?_, ?_, fun hw => ?_, fun _ => hb.trans hv⟩
    · simp [hp, hv, h.isAlcohol]
    · simp [hp, hv, h.notAlcohol]
    · exact absurd (h.blockNow (by simpa [hp, hv] using hw)) (by simp [hv])
  | false =>
    refine ⟨?_, ?_, fun _ => hb.trans hv, fun hw => ?_⟩
    · simp [hp, hv, h.isAlcohol]
    · simp [hp, hv, h.notAlcohol]
    · exact absurd (h.unblockNow (by simpa [hp, hv] using hw)) (by simp [hv])

/-- Later events that are no commands leave the outcome of the call. -/
theorem Done.grow {m : List Event} (h : Done e v n) (hist : w.hist = m ++ e.hist)
    (hb : w.BLOCK = v.BLOCK) (hl : lastCommand m = lastCommand n) (hq : Quiet w) : Done e w m :=
  ⟨hist, hl.trans h.last, hb.trans h.block, hq⟩

theorem kept_done : Kept (call Q) fun v => ∃ n, Done e v n where
  inv _ _ := trivial
  loosen v := by
    rintro ⟨n, h⟩
    rw [Answers.chain_call]
    rintro i _ ⟨d, b, rfl⟩
    exact ⟨n, h.grow h.hist rfl rfl (h.quiet.same rfl rfl)⟩
  onV1 := by
    refine onV1_of_steps ?_ ?_ ?_ ?_
    · rintro v p ⟨n, h⟩
      exact chain_to trivial fun _ _ => ⟨trivial, .app ⟨.V1, p⟩ :: n,
        h.grow (by simp [h.hist]) rfl rfl (h.quiet.same rfl rfl)⟩
    · rintro v k ⟨n, h⟩
      refine chain_sending trivial ?_
      rintro i w (rfl | rfl) -
      · exact ⟨trivial, .reply 1 [.int k] :: n, h.grow (by simp [h.hist]) rfl rfl
          (h.quiet.same rfl rfl)⟩
      · exact ⟨trivial, n, h⟩
    · rintro v ⟨n, h⟩ hb
      exact chain_to trivial fun _ _ => ⟨trivial, .appUnblock v.BLOCK :: n,
        h.grow (by simp [h.hist]) rfl rfl (h.quiet.raise rfl (by simp [hb]))⟩
    · rintro v ⟨n, h⟩ hb
      exact chain_to trivial fun _ _ => ⟨trivial, .appBlock v.BLOCK :: n,
        h.grow (by simp [h.hist]) rfl rfl (h.quiet.raise rfl (by simp [hb]))⟩

/-- One call of `updateWebsocket` without a test. -/
theorem leads_updateWebsocket (P : Platform) (he : Quiet e) :
    (call Q).Leads State.lock (· = e) (updateWebsocket P) (fun v => ∃ n, Done e v n) := by
  have h1 : (call Q).Leads State.lock (· = e) (answerIsAlcohol P) (· = e) :=
    leads_unasked .isAlcohol (fun _ => rfl) (fun _ _ => trivial) (by rintro v rfl; exact he.isAlcohol)
  have h2 : (call Q).Leads State.lock (· = e) (answerNotAlcohol P) (· = e) :=
    leads_unasked .notAlcohol (fun _ => rfl) (fun _ _ => trivial) (by rintro v rfl; exact he.notAlcohol)
  have h3 : (call Q).Leads State.lock (· = e) answerBlockNow (fun v => ∃ n, Half e v n) := by
    refine leads_answerBlockNow (fun _ _ => trivial) (fun _ _ => trivial) ?_ ?_
    · rintro v rfl hp
      exact ⟨[], rfl, by simp [hp, lastCommand], by simp [hp], fun r => by
        cases r <;> simp [he.isAlcohol, he.notAlcohol, hp]⟩
    · rintro v rfl hp
      refine Answers.chain_answering ⟨[.broadcast (Request.command .blockNow) (some .blockNow)], rfl,
        ?_, by simp [hp], fun r => ?_⟩
      · rw [hp, if_pos rfl]
        rfl
      · cases r <;> simp [he.isAlcohol, he.notAlcohol]
  have h4 : (call Q).Leads State.lock (fun v => ∃ n, Half e v n) answerUnblockNow
      (fun v => ∃ n, Done e v n) := by
    refine leads_answerUnblockNow (fun _ _ => trivial) (fun _ _ => trivial) ?_ ?_
    · rintro v ⟨n, h⟩ hp
      have hu : e.pending .unblockNow = false := by simpa [h.pending] using hp
      refine ⟨n, h.hist, ?_, ?_, ?_⟩
      · simp [h.last, command, hu]
      · rw [h.block, command, hu]
        cases e.pending .blockNow <;> rfl
      · exact ⟨by simp [h.pending], by simp [h.pending], by simp [h.pending], by simp [h.pending, hu]⟩
    · rintro v ⟨n, h⟩ hp
      have hu : e.pending .unblockNow = true := by simpa [h.pending] using hp
      refine Answers.chain_answering ⟨.broadcast (Request.command .unblockNow) (some .unblockNow) :: n,
        by simp [h.hist], ?_, ?_, ?_⟩
      · simp [lastCommand, command, hu, Request.command]
      · rw [command, hu]
        rfl
      · refine ⟨?_, ?_, ?_, ?_⟩ <;> simp [h.pending]
  have h5 : (call Q).Leads State.lock (fun v => ∃ n, Done e v n) (checkRelay P)
      (fun v => ∃ n, Done e v n) := by
    refine leads_checkRelay P (fun _ _ => trivial) (kept_done (e := e)) (fun _ h => h) (fun _ h => h) ?_
    rintro v ⟨n, h⟩
    exact chain_to trivial fun _ _ => ⟨trivial, .relayLost :: n,
      h.grow (by simp [h.hist]) rfl rfl (h.quiet.same rfl rfl)⟩
  exact .seq h1 (.seq h2 (.seq h3 (.seq h4 (.seq h5
    (Leads.done (A := fun v => ∃ n, Done e v n) fun _ _ => trivial)))))

/-- After a write on V1 that found `e`. -/
structure Asked (e v : Lock) : Prop where
  block : v.BLOCK = e.BLOCK
  raised : v.pending (if e.BLOCK then .unblockNow else .blockNow) = true
  quiet : Quiet v

/-- The handler of V1. -/
theorem leads_handleApp (P : Platform) (he : Quiet e) (p : Param) :
    (call Q).Leads State.lock (· = e) (handleApp P (some ⟨.V1, p⟩)) (Asked e) := by
  refine leads_onV1 P (fun _ _ => trivial) (fun _ _ => trivial) p ?_
  rintro v rfl
  have hsend : ∀ i (v w : Lock) x, Lock.sending x i v w →
      w.BLOCK = v.BLOCK ∧ w.pending = v.pending := by
    rintro i v _ x rfl
    split <;> exact ⟨rfl, rfl⟩
  rw [Answers.chain_call]
  rintro _ _ rfl
  cases hv : v.BLOCK with
  | true =>
    rw [Lock.toggling, if_pos rfl, Answers.chain_call]
    intro i w hw
    obtain ⟨hb, hp⟩ := hsend _ _ _ _ hw
    rw [Answers.chain_call]
    rintro _ _ rfl
    exact ⟨hb, by simp [hv], he.raise hb (by simp [Lock.put, hp, hv])⟩
  | false =>
    rw [Lock.toggling, if_neg (by simp), Answers.chain_call]
    intro i w hw
    obtain ⟨hb, hp⟩ := hsend _ _ _ _ hw
    rw [Answers.chain_call]
    rintro _ _ rfl
    exact ⟨hb, by simp [hv], he.raise hb (by simp [Lock.put, hp, hv])⟩

/-- The command that answers a write is for the opposite of what the write found. -/
theorem Asked.command (h : Asked e v) : ∃ c, command v = some c ∧ c.locks = !e.BLOCK := by
  have hr := h.raised
  cases he : e.BLOCK with
  | true =>
    simp only [he, if_true] at hr
    exact ⟨.unblockNow, by simp [Toggle.command, hr], rfl⟩
  | false =>
    simp only [he, Bool.false_eq_true, if_false] at hr
    have hu : v.pending .unblockNow = false := by
      by_contra hu
      have hb := h.quiet.unblockNow (by simpa using hu)
      simp [h.block, he] at hb
    exact ⟨.blockNow, by simp [Toggle.command, hr, hu], rfl⟩

end Toggle

/-- A write of the app on V1, or a call of `updateWebsocket`. -/
inductive Call where
  | write (v : Int)
  | update

def Call.code (P : Platform) : Call → Sketch
  | .write v => handleApp P (some ⟨.V1, .ofInt v⟩)
  | .update => updateWebsocket P

/-- The calls one after the other, each run to its end with the choices it finds. -/
def serve (P : Platform) : List (Call × Run) → State → Option State
  | [], s => some s
  | (c, xs) :: cs, s => (finish react xs [c.code P] s).bind (serve P cs)

section

variable {P : Platform} {s t u : State}

theorem during_call {c : Call} {xs : Run} (h : finish react xs [c.code P] s = some t) :
    t.log = s.during t ++ s.log := by
  cases c with
  | write v => exact during_append (grows_handleApp P (some ⟨.V1, .ofInt v⟩)) h
  | update => exact during_append (grows_updateWebsocket P) h

theorem quiet_call {c : Call} {xs : Run} (hs : Toggle.Quiet s.lock)
    (h : finish react xs [c.code P] s = some t) : Toggle.Quiet t.lock := by
  cases c with
  | write v =>
    exact (Leads.finish (A := (· = s.lock)) (fun r s => lock_react s r)
      (Toggle.leads_handleApp P hs _) rfl h).quiet
  | update =>
    obtain ⟨n, hd⟩ := Leads.finish (A := (· = s.lock)) (fun r s => lock_react s r)
      (Toggle.leads_updateWebsocket P hs) rfl h
    exact hd.quiet

theorem serve_cons {c : Call} {xs : Run} {cs : List (Call × Run)} :
    serve P ((c, xs) :: cs) s = some t ↔
      ∃ u, finish react xs [c.code P] s = some u ∧ serve P cs u = some t :=
  Option.bind_eq_some_iff

/-- Over any number of calls a request of the app stays one for the opposite of `BLOCK`. -/
theorem serve_quiet {cs : List (Call × Run)} (hs : Toggle.Quiet s.lock)
    (h : serve P cs s = some t) : Toggle.Quiet t.lock ∧ s.log <:+ t.log := by
  induction cs generalizing s with
  | nil =>
    obtain rfl : s = t := by simpa [serve] using h
    exact ⟨hs, List.suffix_refl _⟩
  | cons p cs ih =>
    obtain ⟨c, xs⟩ := p
    obtain ⟨u, hu, ht⟩ := serve_cons.1 h
    obtain ⟨hq, hl⟩ := ih (quiet_call hs hu) ht
    exact ⟨hq, List.IsSuffix.trans ⟨_, (during_call hu).symm⟩ hl⟩

theorem lastCommand_append {n : List Event} {c : Command} (h : lastCommand n = some c)
    (m : List Event) : lastCommand (n ++ m) = some c := by
  induction n with
  | nil => simp [lastCommand] at h
  | cons e n ih => cases e <;> first | exact ih h | exact h

/-- The update after a write turns the lock over, and the last command says so. -/
theorem write_update {v : Int} {xs ys : Run} (hs : Toggle.Quiet s.lock)
    (h : serve P [(.write v, xs), (.update, ys)] s = some t) :
    t.BLOCK = !s.BLOCK ∧ ∃ n c, t.log = n ++ s.log ∧ lastCommand n = some c ∧ c.locks = !s.BLOCK := by
  obtain ⟨u, hu, h⟩ := serve_cons.1 h
  obtain ⟨w, hw, h⟩ := serve_cons.1 h
  obtain rfl : w = t := by simpa [serve] using h
  have ha := Leads.finish (A := (· = s.lock)) (fun r s => lock_react s r)
    (Toggle.leads_handleApp P hs _) rfl hu
  obtain ⟨n, hd⟩ := Leads.finish (A := (· = u.lock)) (fun r s => lock_react s r)
    (Toggle.leads_updateWebsocket P ha.quiet) rfl hw
  obtain ⟨c, hc, hl⟩ := ha.command
  have hn : n = (u.during w).filter Event.onLock := by
    refine List.append_cancel_right (?_ : n ++ u.lock.hist = _ ++ u.lock.hist)
    rw [← hd.hist]
    show w.log.filter Event.onLock = _
    rw [during_call hw, List.filter_append]
    rfl
  have hlast : lastCommand (u.during w) = some c := by
    rw [← lastCommand_filter, ← hn, hd.last, hc]
  refine ⟨?_, u.during w ++ s.during u, c, ?_, lastCommand_append hlast _, hl⟩
  · have hb := hd.block
    rw [hc] at hb
    exact hb.trans hl
  · rw [List.append_assoc, ← during_call hu, ← during_call hw]

end

/-- After the first update that follows the app's last write, the lock is what this write asked
for if and only if it was not when the write arrived. -/
theorem last_write_wins_iff (P : Platform) {cs : List (Call × Run)} {v : Int} {xs ys : Run}
    {s r t : State} (hs : Toggle.Quiet s.lock) (hv : v = 0 ∨ v = 1) (hr : serve P cs s = some r)
    (ht : serve P [(.write v, xs), (.update, ys)] r = some t) :
    ((t.BLOCK = true ↔ v = 1) ∧
      ∃ c, lastCommand (s.during t) = some c ∧ (c.locks = true ↔ v = 1)) ↔
    ¬ (r.BLOCK = true ↔ v = 1) := by
  obtain ⟨hq, m, hm⟩ := serve_quiet hs hr
  obtain ⟨hb, n, c, hn, hc, hl⟩ := write_update hq ht
  have hd : s.during t = n ++ m := by
    rw [State.during, hn, ← hm]
    simp [← List.append_assoc]
  have hlast : lastCommand (s.during t) = some c := by
    rw [hd]
    exact lastCommand_append hc m
  rw [hlast, hb]
  simp only [Option.some.injEq, exists_eq_left', hl]
  cases hr' : r.BLOCK <;> rcases hv with rfl | rfl <;> simp

/-- The calls of one write of the app and the update after it. -/
def asked (v : Int) : List (Call × Run) := [(.write v, idle 19), (.update, idle 26)]

theorem quiet_of_idle {s : State} (h : ∀ r, s.pending r = false) : Toggle.Quiet s.lock :=
  ⟨h .isAlcohol, h .notAlcohol, fun hp => absurd ((h .blockNow).symm.trans hp) (by simp),
    fun hp => absurd ((h .unblockNow).symm.trans hp) (by simp)⟩

theorem last_write_wins_unlock :
    ∃ t, serve bench (asked 0) (after bench (flashOf 5) (idle 164)).state = some t ∧
      (t.BLOCK = true ↔ (0 : Int) = 1) := by
  have hf : (serve bench (asked 0) (after bench (flashOf 5) (idle 164)).state).isSome = true := by
    decide +kernel
  obtain ⟨t, ht⟩ := Option.isSome_iff_exists.1 hf
  have hq : Toggle.Quiet (after bench (flashOf 5) (idle 164)).state.lock :=
    quiet_of_idle fun r => by cases r <;> decide +kernel
  exact ⟨t, ht, ((last_write_wins_iff bench hq (.inl rfl)
    (show serve bench [] _ = some _ from rfl) ht).2 (by decide +kernel)).1⟩

/-- A lock request that comes before an unlock request is answered is taken for another one. -/
theorem last_write_can_lose : ¬ ∀ (P : Platform) (cs : List (Call × Run)) (v : Int) (xs ys : Run)
    (s r t : State), (∀ q, s.pending q = false) → (v = 0 ∨ v = 1) → serve P cs s = some r →
    serve P [(.write v, xs), (.update, ys)] r = some t →
    (t.BLOCK = true ↔ v = 1) ∧
      ∃ c, lastCommand (s.during t) = some c ∧ (c.locks = true ↔ v = 1) := by
  intro h
  have hf : ((serve bench [(.write 0, idle 19)] (after bench (flashOf 5) (idle 164)).state).bind
      (serve bench (asked 1))).map State.BLOCK = some false := by
    decide +kernel
  obtain ⟨t, ht, hb⟩ := Option.map_eq_some_iff.1 hf
  obtain ⟨r, hr, ht⟩ := Option.bind_eq_some_iff.1 ht
  have hw := (h bench [(.write 0, idle 19)] 1 (idle 19) (idle 26)
    (after bench (flashOf 5) (idle 164)).state r t
    (fun q => by cases q <;> decide +kernel) (.inr rfl) hr ht).1
  simp [hb] at hw

end Center
