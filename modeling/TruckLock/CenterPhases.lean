import TruckLock.CenterLock

/-!
# The lock through the code of Center

One triple for each function of the sketch, for any assertions on the view of
the lock that its moves connect.
-/
namespace Center

open Firmware Spec

/-- What a poll of the app asks of an assertion: a setting may be stored and V1 be written. -/
structure Kept (S : Spec Env Lock) (A : Lock → Prop) : Prop where
  inv : ∀ v, A v → S.inv v
  loosen : ∀ v, A v → S.Chain [Lock.loosening] A v
  onV1 : ∀ v p, A v → S.Chain (Lock.saying (.app ⟨.V1, p⟩) :: Lock.toggling v.BLOCK) A v

section

variable {S : Spec Env Lock} {A B Q : Lock → Prop} (P : Platform)

/-- The handler of V1, statement by statement. -/
theorem onV1_of_steps
    (happ : ∀ v p, A v → S.Chain [Lock.saying (.app ⟨.V1, p⟩)] A v)
    (hreply : ∀ v n, A v → S.Chain [Lock.sending (.reply 1 [.int n])] A v)
    (hunblock : ∀ v, A v → v.BLOCK = true →
      S.Chain [Lock.raising .unblockNow fun v => .appUnblock v.BLOCK] A v)
    (hblock : ∀ v, A v → v.BLOCK = false →
      S.Chain [Lock.raising .blockNow fun v => .appBlock v.BLOCK] A v)
    (v : Lock) (p : Param) (hv : A v) :
    S.Chain (Lock.saying (.app ⟨.V1, p⟩) :: Lock.toggling v.BLOCK) A v := by
  have hsend : ∀ i (v w : Lock) e, Lock.sending e i v w → w.BLOCK = v.BLOCK := by
    rintro i v _ e rfl
    split <;> rfl
  refine chain_step (happ v p hv) ?_
  rintro i _ rfl hw
  cases hb : v.BLOCK with
  | true => exact chain_step (hreply _ 0 hw) fun i u hu hA => hunblock u hA (by rw [hsend _ _ _ _ hu, ← hb]; rfl)
  | false => exact chain_step (hreply _ 1 hw) fun i u hu hA => hblock u hA (by rw [hsend _ _ _ _ hu, ← hb]; rfl)

theorem chain_sending {v : Lock} {e : Event} (hv : S.inv v)
    (h : ∀ i w, w = v.say e ∨ w = v → S.ok i v w → S.good v w ∧ Q w) :
    S.Chain [Lock.sending e] Q v := by
  refine ⟨hv, fun i w hw hok => h i w ?_ hok⟩
  unfold Lock.sending at hw
  split at hw
  · exact .inl hw
  · exact .inr hw

theorem leads_delay (hA : ∀ v, A v → S.inv v) (ms : Nat) :
    S.Leads State.lock A (delay ms) A :=
  Leads.idle (K := fun _ => False) hA (fun _ h => h.elim) fun _ _ _ => rfl

theorem leads_set {f : State → State} {m : Move Env Lock} (hf : ∀ i s, m i s.lock (f s).lock)
    (h : ∀ v, A v → S.Chain [m] B v) : S.Leads State.lock A (.set f) B :=
  Leads.move hf h

theorem Kept.loose {K : Sketch → Prop} (h : Kept S A)
    (hK : ∀ c, K c → S.Leads State.lock A c A) {c : Sketch} (hc : Still K c) :
    S.Leads State.lock A c A :=
  Leads.made (E := Loose) h.inv (fun _ _ _ hl => hl) h.loosen hK hc

theorem leads_toggle (hQ : ∀ v, Q v → S.inv v) (n : Int) (text : String) {m : Move Env Lock}
    {f : State → State} (hf : ∀ i s, m i s.lock (f s).lock) :
    S.Leads State.lock (S.Chain [Lock.sending (.reply 1 [.int n]), m] Q)
      (.block [delay 10, reply 1 [.int n], delay 20, reply 4 [.text text], delay 20, .set f]) Q := by
  have h2 : ∀ v, S.Chain [Lock.sending (.reply 1 [.int n]), m] Q v → S.inv v := fun _ h => h.1
  have h1 : ∀ v, S.Chain [m] Q v → S.inv v := fun _ h => h.1
  have h4 : S.Leads State.lock (S.Chain [m] Q) (reply 4 [.text text]) (S.Chain [m] Q) := by
    refine Leads.idle (K := fun _ => False) h1 (fun _ h => h.elim) fun i s => ?_
    dsimp only
    split
    · exact lock_emit_idle s _ rfl
    · rfl
  refine .seq (leads_delay h2 10) (.seq (R := fun s => S.Chain [m] Q s.lock) ?_
    (.seq (leads_delay h1 20) (.seq h4 (.seq (leads_delay h1 20) (.seq ?_ (Leads.skip hQ fun _ h => h))))))
  · exact Leads.act fun i s => lock_sending s _ rfl i
  · exact Leads.act (l := []) hf

/-- A write of the app on V1, from its arrival to the end of the handler. -/
theorem leads_onV1 (hA : ∀ v, A v → S.inv v) (hB : ∀ v, B v → S.inv v) (p : Param)
    (h : ∀ v, A v → S.Chain (Lock.saying (.app ⟨.V1, p⟩) :: Lock.toggling v.BLOCK) B v) :
    S.Leads State.lock A (handleApp P (some ⟨.V1, p⟩)) B := by
  refine .seq (leads_set (B := fun v => S.Chain (Lock.toggling v.BLOCK) B v)
    (m := Lock.saying (.app ⟨.V1, p⟩)) (fun i s => lock_emit s _ rfl) ?_) ?_
  · intro v hv
    refine ⟨hA v hv, ?_⟩
    rintro i _ rfl hok
    exact (h v hv).2 i _ rfl hok
  refine Leads.ite (A := fun v => S.Chain (Lock.toggling v.BLOCK) B v) (fun _ hv => hv.inv hB) ?_ ?_
    (leads_toggle hB 0 _ fun i s => lock_raising s .unblockNow (fun v => .appUnblock v.BLOCK) rfl i)
    (leads_toggle hB 1 _ fun i s => lock_raising s .blockNow (fun v => .appBlock v.BLOCK) rfl i)
  · intro i s hs hb
    rwa [lock_BLOCK, hb] at hs
  · intro i s hs hb
    rwa [lock_BLOCK, hb] at hs

theorem Kept.handleApp (h : Kept S A) (w : Option AppWrite) :
    S.Leads State.lock A (handleApp P w) A := by
  cases w with
  | none => exact Leads.skip h.inv fun _ hv => hv
  | some w =>
    by_cases hp : w.pin = .V1
    · obtain ⟨pin, param⟩ := w
      obtain rfl : pin = .V1 := hp
      exact leads_onV1 P h.inv h.inv param fun v hv => h.onV1 v param hv
    · refine .seq ?_ (h.loose (K := fun _ => False) (fun _ hc => hc.elim) (still_blynkWrite P w hp))
      exact h.loose (K := fun _ => False) (fun _ hc => hc.elim)
        fun _ s => loose_emit s _ (by simpa [Event.onLock] using hp)

theorem Kept.blynkRun (h : Kept S A) : S.Leads State.lock A (blynkRun P) A :=
  Triple.poll (D := fun _ s => A s.lock) (stable h.inv) (fun _ _ _ hs _ _ => hs)
    (fun i _ => h.handleApp P i.app) fun _ hs => hs

theorem Kept.still (h : Kept S A) {c : Sketch} (hc : StillApp P c) : S.Leads State.lock A c A :=
  h.loose (by rintro _ rfl; exact h.blynkRun P) hc

theorem Kept.send (h : Kept S A) {e : State → Event} {e' : Event} (he : ∀ s, e s = e')
    (hl : e'.onLock = true) (hAB : ∀ v, A v → S.Chain [Lock.sending e'] B v) :
    S.Leads State.lock A (send P e) B := by
  refine .seq (h.blynkRun P) (Leads.move (m := Lock.sending e') (fun i s => ?_) hAB)
  simp only [he]
  exact lock_sending s e' hl i

theorem leads_idle (hA : ∀ v, A v → S.inv v) {f : State → State} (hf : ∀ s, (f s).lock = s.lock) :
    S.Leads State.lock A (.set f) A :=
  Leads.idle (K := fun _ => False) hA (fun _ h => h.elim) fun _ s => hf s

theorem leads_answering (r : Request) {f g h : State → State} {rest : Sketch}
    (hf : ∀ s, (f s).lock =
      { s.lock with timedownMinute := if r.command.locks then 0 else s.lock.duration })
    (hg : ∀ s, (g s).lock = { s.lock with BLOCK := r.command.locks })
    (hh : ∀ s, (h s).lock = s.lock.put r false) (hrest : S.Leads State.lock B rest Q) :
    S.Leads State.lock (S.Chain (Lock.answering r) B)
      (.seq (broadcastTXT r.command (some r)) (.seq (.set f) (.seq (.set g) (.seq (.set h) rest)))) Q :=
  .seq (Leads.act fun _ s => lock_emit s _ rfl) (.seq (Leads.act fun _ s => hf s)
    (.seq (Leads.act fun _ s => hg s) (.seq (Leads.act (l := []) fun _ s => hh s) hrest)))

/-- After an answer: with Wi-Fi the report is owed first. -/
def Reported (R B : Lock → Prop) (v : Lock) : Prop :=
  (v.wifiFlash = true → R v) ∧ (v.wifiFlash = false → B v)

variable {R : Lock → Prop}

theorem leads_reported (hR : Kept S R) (hB : Kept S B) {report : Sketch}
    (hr : S.Leads State.lock R report B) :
    S.Leads State.lock (Reported R B) (.when (fun _ s => s.wifiFlash) report) B := by
  have hi : ∀ v, Reported R B v → S.inv v := by
    intro v hv
    cases hw : v.wifiFlash with
    | true => exact hR.inv v (hv.1 hw)
    | false => exact hB.inv v (hv.2 hw)
  exact Leads.when hi (fun _ _ hs hw => hs.1 hw) (fun _ _ hs hw => hs.2 hw) hr

/-- A branch of `updateWebsocket`. -/
theorem leads_branch (r : Request) {c : State → Bool} {body : Sketch}
    (hc : ∀ s, c s = s.lock.pending r) (hA : ∀ v, A v → S.inv v)
    (h0 : ∀ v, A v → v.pending r = false → B v)
    (h1 : ∀ v, A v → v.pending r = true → S.Chain (Lock.answering r) Q v)
    (hbody : S.Leads State.lock (S.Chain (Lock.answering r) Q) body B) :
    S.Leads State.lock A (.when (fun _ s => c s) body) B := by
  refine Leads.when hA (fun i s hs h => h1 _ hs ?_) (fun i s hs h => h0 _ hs ?_) hbody
  · rw [← hc, h]
  · rw [← hc, h]

/-- A branch whose request is not pending. -/
theorem leads_unasked (r : Request) {c : State → Bool} {body : Sketch}
    (hc : ∀ s, c s = s.lock.pending r) (hA : ∀ v, A v → S.inv v)
    (h : ∀ v, A v → v.pending r = false) :
    S.Leads State.lock A (.when (fun _ s => c s) body) A := by
  refine Leads.when (T := fun _ => False) hA (fun i s hs hp => ?_) (fun _ _ hs _ => hs) .absurd
  rw [hc, h _ hs] at hp
  exact Bool.false_ne_true hp

theorem leads_reportAlcohol (hR : Kept S R) (hB : Kept S B)
    (h : ∀ v, R v → S.Chain [Lock.sending (.virtualWrite 1 [.int 1])] B v) :
    S.Leads State.lock R (reportAlcohol P) B := by
  refine .seq (hR.still P (still_updateToTable P)) (.seq (hR.still P (still_delay _)) (.seq
    (hR.send P (fun _ => rfl) rfl h) (hB.still P ?_)))
  exact ⟨still_delay _, ⟨still_virtualWrite P 3 _ (by decide), still_virtualWrite P 3 _ (by decide)⟩,
    still_delay _, still_send P _ fun _ => rfl, still_delay _, still_send P _ fun _ => rfl,
    still_delay _, trivial⟩

theorem leads_reportNotAlcohol (hR : Kept S R) (hB : Kept S B)
    (h : ∀ v, R v → S.Chain [Lock.sending (.virtualWrite 1 [.int 0])] B v) :
    S.Leads State.lock R (reportNotAlcohol P) B := by
  refine .seq (hR.still P (still_delay _)) (.seq (hR.send P (fun _ => rfl) rfl h) (hB.still P ?_))
  exact ⟨still_delay _, still_virtualWrite P 3 _ (by decide), still_delay _, trivial⟩

theorem leads_answerIsAlcohol (hA : ∀ v, A v → S.inv v) (hR : Kept S R) (hB : Kept S B)
    (h0 : ∀ v, A v → v.pending .isAlcohol = false → B v)
    (h1 : ∀ v, A v → v.pending .isAlcohol = true →
      S.Chain (Lock.answering .isAlcohol) (Reported R B) v)
    (h : ∀ v, R v → S.Chain [Lock.sending (.virtualWrite 1 [.int 1])] B v) :
    S.Leads State.lock A (answerIsAlcohol P) B := by
  refine leads_branch .isAlcohol (fun _ => rfl) hA h0 h1 ?_
  refine leads_answering .isAlcohol (fun _ => rfl) (fun _ => rfl) (fun s => lock_put s .isAlcohol false) ?_
  exact .seq (leads_reported hR hB (leads_reportAlcohol P hR hB h))
    (hB.still P ⟨still_delay _, trivial⟩)

theorem leads_answerNotAlcohol (hA : ∀ v, A v → S.inv v) (hR : Kept S R) (hB : Kept S B)
    (h0 : ∀ v, A v → v.pending .notAlcohol = false → B v)
    (h1 : ∀ v, A v → v.pending .notAlcohol = true →
      S.Chain (Lock.answering .notAlcohol) (Reported R B) v)
    (h : ∀ v, R v → S.Chain [Lock.sending (.virtualWrite 1 [.int 0])] B v) :
    S.Leads State.lock A (answerNotAlcohol P) B := by
  refine leads_branch .notAlcohol (fun _ => rfl) hA h0 h1 ?_
  refine leads_answering .notAlcohol (fun _ => rfl) (fun _ => rfl)
    (fun s => lock_put s .notAlcohol false) ?_
  exact .seq (leads_reported hR hB (leads_reportNotAlcohol P hR hB h))
    (hB.still P ⟨still_delay _, fun _ _ => ⟨_, _, rfl⟩, trivial⟩)

theorem leads_answerBlockNow (hA : ∀ v, A v → S.inv v) (hB : ∀ v, B v → S.inv v)
    (h0 : ∀ v, A v → v.pending .blockNow = false → B v)
    (h1 : ∀ v, A v → v.pending .blockNow = true → S.Chain (Lock.answering .blockNow) B v) :
    S.Leads State.lock A answerBlockNow B := by
  refine leads_branch .blockNow (fun _ => rfl) hA h0 h1 ?_
  exact leads_answering .blockNow (fun _ => rfl) (fun _ => rfl) (fun s => lock_put s .blockNow false)
    (Leads.done hB)

theorem leads_answerUnblockNow (hA : ∀ v, A v → S.inv v) (hB : ∀ v, B v → S.inv v)
    (h0 : ∀ v, A v → v.pending .unblockNow = false → B v)
    (h1 : ∀ v, A v → v.pending .unblockNow = true → S.Chain (Lock.answering .unblockNow) B v) :
    S.Leads State.lock A answerUnblockNow B := by
  refine leads_branch .unblockNow (fun _ => rfl) hA h0 h1 ?_
  exact leads_answering .unblockNow (fun _ => rfl) (fun _ => rfl)
    (fun s => lock_put s .unblockNow false) (Leads.both (leads_idle hB fun _ => rfl) (Leads.done hB))

/-- The watchdog: `B` is kept once it has found the relay lost. -/
theorem leads_checkRelay (hA : ∀ v, A v → S.inv v) (hB : Kept S B) (hQ : ∀ v, B v → Q v)
    (h0 : ∀ v, A v → Q v) (h1 : ∀ v, A v → S.Chain [Lock.saying .relayLost] B v) :
    S.Leads State.lock A (checkRelay P) Q := by
  refine Leads.when (T := A) hA (fun _ _ hs _ => hs) (fun _ _ hs _ => h0 _ hs) ?_
  refine Triple.post (Q := fun s => B s.lock) ?_ fun s hs => hQ s.lock hs
  refine .seq (leads_set (fun _ s => lock_emit s _ rfl) h1) (Leads.both (hB.still P (still_delay _))
    (Leads.both (hB.still P (still_virtualWrite P 6 _ (by decide))) (Leads.both
    (Leads.get hB.inv fun n => ?_) (Leads.done hB.inv))))
  exact Triple.whilst (T := fun s => B s.lock) (stable hB.inv) (fun _ _ _ hs _ _ => hs)
    (fun _ _ _ hs _ _ => hs) (.reset (stable hB.inv))

theorem leads_resync :
    S.Leads State.lock (fun v => S.Chain [Lock.resync v.timedownMinute] A v)
      (.ite (fun _ s => s.timedownMinute = 0) (broadcastTXT .blockNow none)
        (broadcastTXT .unblockNow none)) A := by
  refine Leads.ite (fun _ hv => hv.1) (fun i s hs h => ?_) (fun i s hs h => ?_)
    (leads_set (m := Lock.saying (.broadcast .blockNow none)) (fun _ s => lock_emit s _ rfl)
      fun _ hv => hv)
    (leads_set (m := Lock.saying (.broadcast .unblockNow none)) (fun _ s => lock_emit s _ rfl)
      fun _ hv => hv)
  · rwa [lock_timedownMinute, Lock.resync, if_pos (of_decide_eq_true h)] at hs
  · rwa [lock_timedownMinute, Lock.resync, if_neg (of_decide_eq_false h)] at hs

/-- The event of a new connection. -/
theorem leads_connect (hB : Kept S B) (hA : ∀ v, A v → S.inv v)
    (h : ∀ v, A v → S.Chain [Lock.saying (.frame "/"), Lock.resync v.timedownMinute] B v) :
    S.Leads State.lock A (handleFrame P (some "/")) B := by
  refine .seq (leads_set (B := fun v => S.Chain [Lock.resync v.timedownMinute] B v)
    (m := Lock.saying (.frame "/")) (fun _ s => lock_emit s _ rfl) ?_) ?_
  · intro v hv
    refine ⟨hA v hv, ?_⟩
    rintro i _ rfl hok
    exact (h v hv).2 i _ rfl hok
  · simp only [webSocketEvent, String.reduceEq, if_false, if_true]
    exact .seq leads_resync (hB.still P ⟨fun _ _ => ⟨_, _, rfl⟩, fun _ _ => ⟨_, _, rfl⟩,
      still_delay _, still_virtualWrite P 6 _ (by decide), still_delay _,
      fun _ _ => ⟨_, _, rfl⟩, trivial⟩)

theorem leads_handleFrame (hA : Kept S A)
    (h0 : ∀ v payload, A v → payload ≠ "/" → S.Chain [Lock.saying (.frame payload)] A v)
    (h1 : ∀ v, A v → S.Chain [Lock.saying (.frame "/"), Lock.resync v.timedownMinute] A v)
    (f : Option String) : S.Leads State.lock A (handleFrame P f) A := by
  cases f with
  | none => exact Leads.skip hA.inv fun _ hv => hv
  | some payload =>
    by_cases hp : payload = "/"
    · subst hp
      exact leads_connect P hA hA.inv h1
    · refine .seq (leads_set (fun _ s => lock_emit s _ rfl) fun v hv => h0 v payload hv hp) ?_
      simp only [webSocketEvent, hp, if_false]
      refine hA.still P ?_
      split
      · exact ⟨fun _ _ => ⟨_, _, rfl⟩, fun _ _ => ⟨_, _, rfl⟩, trivial⟩
      · split
        · exact ⟨fun _ _ => ⟨_, _, rfl⟩, fun _ _ => ⟨_, _, rfl⟩, trivial⟩
        · trivial

theorem leads_minuteGate (hA : Kept S A)
    (h0 : ∀ v, A v → v.timedownMinute ≠ 0 → v.timedownMinute ≠ 1 → S.Chain [Lock.ticking] A v)
    (h1 : ∀ v, A v → v.timedownMinute = 1 → S.Chain (Lock.ticking :: Lock.expiring) A v) :
    S.Leads State.lock A minuteGate A := by
  have hD : ∀ v, (v.timedownMinute = 0 ∧ S.Chain Lock.expiring A v ∨
      v.timedownMinute ≠ 0 ∧ A v) → S.inv v := by
    rintro v (⟨-, hv⟩ | ⟨-, hv⟩)
    · exact hv.1
    · exact hA.inv v hv
  have hexp : S.Leads State.lock (S.Chain Lock.expiring A) expire A := by
    refine .seq (Leads.act fun i s => lock_raising s .blockNow (fun _ => .expired) rfl i) ?_
    refine .seq (leads_idle (fun _ hv => hv.1) fun _ => rfl) ?_
    exact .seq (Leads.act (l := []) fun _ _ => rfl) (Leads.skip hA.inv fun _ hv => hv)
  have hA' : ∀ v, A v ∧ v.timedownMinute ≠ 0 → S.inv v := fun v hv => hA.inv v hv.1
  refine Leads.when (T := fun v => A v ∧ v.timedownMinute ≠ 0) hA.inv ?_ (fun _ _ hs _ => hs) ?_
  · intro i s hs hc
    simp only [Bool.and_eq_true, decide_eq_true_eq] at hc
    exact ⟨hs, hc.2⟩
  refine .seq (leads_idle hA' fun _ => rfl) (.seq (R := fun s => s.lock.timedownMinute = 0 ∧
    S.Chain Lock.expiring A s.lock ∨ s.lock.timedownMinute ≠ 0 ∧ A s.lock) ?_
    (.seq ?_ (Leads.skip hA.inv fun _ hv => hv)))
  · refine leads_set (A := fun v => A v ∧ v.timedownMinute ≠ 0) (B := fun v =>
      v.timedownMinute = 0 ∧ S.Chain Lock.expiring A v ∨ v.timedownMinute ≠ 0 ∧ A v)
      (m := Lock.ticking) (fun _ _ => rfl) ?_
    rintro v ⟨hv, hne⟩
    refine ⟨hA.inv v hv, ?_⟩
    rintro i _ rfl hok
    by_cases h : v.timedownMinute = 1
    · obtain ⟨hg, hc⟩ := (h1 v hv h).2 i _ rfl hok
      exact ⟨hg, .inl ⟨by simp [h], hc⟩⟩
    · obtain ⟨hg, hc⟩ := (h0 v hv hne h).2 i _ rfl hok
      refine ⟨hg, .inr ⟨fun h0 => h ?_, hc⟩⟩
      have h0 : v.timedownMinute - 1 = 0 := h0
      omega
  · refine Leads.when hD ?_ ?_ hexp
    · rintro i s (⟨-, hs⟩ | ⟨h, -⟩) h0
      · exact hs
      · exact absurd (of_decide_eq_true h0) h
    · rintro i s (⟨h, -⟩ | ⟨-, hs⟩) h0
      · exact absurd h (of_decide_eq_false h0)
      · exact hs

theorem leads_judge (hA : Kept S A)
    (h0 : ∀ v, A v → v.isMatchFaceID = true →
      S.Chain [Lock.judging .isAlcohol .alcohol Verdict.Drunk] A v)
    (h1 : ∀ v, A v → v.isMatchFaceID = true →
      S.Chain [Lock.judging .notAlcohol .notAlcohol Verdict.Sober] A v)
    (downLimit upLimit threshold : Int) :
    S.Leads State.lock (fun v => A v ∧ v.isMatchFaceID = true)
      (judge downLimit upLimit threshold) A := by
  have hi : ∀ v, A v ∧ v.isMatchFaceID = true → S.inv v := fun v hv => hA.inv v hv.1
  refine Leads.get hi fun MAX => ?_
  refine Leads.ite (T := fun v => (A v ∧ v.isMatchFaceID = true) ∧ upLimit < MAX - threshold)
    (F := fun v => (A v ∧ v.isMatchFaceID = true) ∧ MAX - threshold ≤ upLimit) hi
    (fun _ _ hs hc => ⟨hs, of_decide_eq_true hc⟩)
    (fun _ _ hs hc => ⟨hs, not_lt.1 (of_decide_eq_false hc)⟩) ?_ ?_
  · refine Leads.step (fun v hv => hi v hv.1) ?_
    rintro i s ⟨⟨hs, hm⟩, hp⟩ hok
    refine (h0 _ hs hm).2 i _ ⟨⟨s.isMatchFaceID, MAX, s.MIN, downLimit, upLimit, threshold⟩, hp, rfl, ?_⟩ hok
    exact (lock_emit _ _ rfl).trans (congrArg (Lock.say · _) (lock_put s .isAlcohol true))
  refine Leads.get (fun v hv => hi v hv.1) fun MIN => ?_
  refine Leads.ite
    (T := A) (F := fun v => (A v ∧ v.isMatchFaceID = true) ∧ MAX - threshold ≤ upLimit ∧
      downLimit ≤ threshold - MIN) (fun v hv => hi v hv.1) (fun _ _ hs _ => hs.1.1)
    (fun _ _ hs hc => ⟨hs.1, hs.2, not_lt.1 (of_decide_eq_false hc)⟩) ?_ ?_
  · exact .seq (leads_idle hA.inv fun s => lock_emit_idle s _ rfl) (leads_delay hA.inv _)
  · refine Leads.step (fun v hv => hi v hv.1) ?_
    rintro i s ⟨⟨hs, hm⟩, hp⟩ hok
    refine (h1 _ hs hm).2 i _ ⟨⟨s.isMatchFaceID, MAX, MIN, downLimit, upLimit, threshold⟩, hp, rfl, ?_⟩ hok
    exact (lock_emit _ _ rfl).trans (congrArg (Lock.say · _) (lock_put s .notAlcohol true))

theorem leads_close (hA : Kept S A)
    (h0 : ∀ v, A v → v.isMatchFaceID = true →
      S.Chain [Lock.judging .isAlcohol .alcohol Verdict.Drunk] A v)
    (h1 : ∀ v, A v → v.isMatchFaceID = true →
      S.Chain [Lock.judging .notAlcohol .notAlcohol Verdict.Sober] A v)
    (downLimit upLimit threshold : Int) :
    S.Leads State.lock A (close P downLimit upLimit threshold) A := by
  refine .seq (leads_idle hA.inv fun _ => rfl) (.seq (Leads.get hA.inv fun MAX =>
    Leads.get hA.inv fun MIN => hA.still P ⟨still_delay _, still_virtualWrite P 35 _ (by decide),
    still_delay _, trivial⟩) (.seq ?_ (hA.still P ⟨fun _ _ => ⟨_, _, rfl⟩, fun _ _ => ⟨_, _, rfl⟩,
    trivial⟩)))
  refine Leads.ite (F := A) hA.inv (fun _ _ hs hc => ⟨hs, hc⟩) (fun _ _ hs _ => hs)
    (leads_judge hA h0 h1 _ _ _) ?_
  exact .seq (leads_idle hA.inv fun s => lock_emit_idle s _ rfl) (leads_delay hA.inv _)

theorem leads_readIsAlcohol (hA : Kept S A)
    (h0 : ∀ v, A v → v.isMatchFaceID = true →
      S.Chain [Lock.judging .isAlcohol .alcohol Verdict.Drunk] A v)
    (h1 : ∀ v, A v → v.isMatchFaceID = true →
      S.Chain [Lock.judging .notAlcohol .notAlcohol Verdict.Sober] A v)
    (downLimit upLimit threshold : Int) :
    S.Leads State.lock A (readIsAlcohol P downLimit upLimit threshold) A := by
  refine .seq (leads_idle hA.inv fun s => lock_emit_idle _ _ rfl) (.seq (Leads.choose ?_
    (leads_close P hA h0 h1 _ _ _)) (.seq (leads_idle hA.inv fun s => lock_emit_idle s _ rfl)
    (Leads.skip hA.inv fun _ hv => hv)))
  refine .seq (leads_idle hA.inv fun s => lock_emit_idle s _ rfl) (Leads.get hA.inv fun n => ?_)
  exact hA.still P ⟨still_sample P, trivial⟩

end

end Center
