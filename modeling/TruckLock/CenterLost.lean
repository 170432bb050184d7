import TruckLock.CenterRelay

/-!
# The watchdog when the relay is silent

Center has handled a `/`, and more than 25 seconds have passed since it last
took note of the relay. The call of `updateWebsocket` that follows finds the
connection lost; whether it resets depends on the statement behind
`while (millis() - t < 1000)`, which is the reset itself.
-/
namespace Center

open Firmware Code

/-- The loop at the end of the watchdog. -/
def waiting : Sketch :=
  .get (fun _ s => s.millis) fun t => .whilst (fun _ s => elapsed s.millis t.toNat < 1000) .reset

variable (P : Platform)

/-- Center handles a `/` in `c`, and goes on without a reset to the call of `updateWebsocket` in `t`. Between
`ys` and `zs` it takes note of the relay at the time `p`, the last time before the call. -/
structure Silence (c : Config State Env) (ys : Run) (i : Env) (zs : Run) (p : Nat) (t : State) : Prop where
  slash : ∃ l, c.code = webSocketEvent P "/" :: l
  unreset : (device P).Along (fun _ c d => d.state.log ≠ .boot :: c.state.log) (ys ++ .run i :: zs) c
  noted : ∃ k s, (device P).exec ys c = ⟨hear :: k, s⟩ ∧ s.clock = p
  silent : (device P).Along (fun x c _ => ∀ i k, x = .run i → c.code ≠ hear :: k) zs
    ((device P).exec (ys ++ [.run i]) c)
  call : ∃ m, (device P).exec (ys ++ .run i :: zs) c = ⟨updateWebsocket P :: m, t⟩

/-- In the call from `t` on, `s₁` is the state in which `t = millis()` is executed and `s₂` that of the test
of `while (millis() - t < 1000)`. -/
def Reads (ws : Run) (t s₁ s₂ : State) : Prop :=
  ∃ (ys : Run) (i : Env) (rs : List Outside) (j : Env) (zs : Run) (m : List Sketch),
    ws = ys ++ .run i :: (rs.map .outside ++ .run j :: zs) ∧
    advance react ys [updateWebsocket P] t = some (waiting :: m, s₁) ∧
    s₂ = rs.foldl (fun s r => react r s) s₁

variable {P}

/-- What the watchdog goes by at the time `p` of the last note. -/
structure Seen (p : Nat) (s : State) : Prop where
  clock : p ≤ s.clock
  previousCheck : s.previousCheckConnectOfCenterVsRelay = p % 2 ^ 32

theorem Seen.keeps {p : Nat} {s t : State} (h : Seen p s) (hk : Keeps s t) : Seen p t :=
  ⟨h.clock.trans hk.clock, hk.previousCheck.trans h.previousCheck⟩

theorem Seen.lost {p : Nat} {s : State} (h : Seen p s) (hk : s.k = true) (hlo : p + 25000 < s.clock)
    (hhi : s.clock < p + 2 ^ 32) : lost s = true := by
  rw [Center.lost, h.previousCheck, State.millis, elapsed_mod h.clock (by omega), hk, Bool.and_true]
  exact decide_eq_true (by omega)

theorem ne_restart {x : Choice Env Outside} {c : Config State Env}
    (h : ((device P).step x c).state.log ≠ .boot :: c.state.log) :
    (device P).step x c ≠ (device P).start (restart c.state) := by
  intro hr
  rw [hr] at h
  exact h rfl

/-- Every configuration of a run from power-on. -/
theorem acting_exec (xs : Run) {c : Config State Env} (h : Acting P c.code) :
    Acting P ((device P).exec xs c).code := by
  induction xs generalizing c with
  | nil => exact h
  | cons x xs ih =>
    refine ih ?_
    rcases acting_next x h with hr | hr
    · rw [hr]
      exact (attentive_boot P).acting
    · exact hr.1

theorem acting_after (flash : Nat → UInt8) (xs : Run) : Acting P (after P flash xs).code :=
  acting_exec xs (attentive_boot P).acting

/-- `k` stays set until a reset. -/
theorem k_exec {xs : Run} {c : Config State Env} (h : Acting P c.code)
    (hx : (device P).Along (fun _ c d => d.state.log ≠ .boot :: c.state.log) xs c) (hk : c.state.k = true) :
    ((device P).exec xs c).state.k = true := by
  induction xs generalizing c with
  | nil => exact hk
  | cons x xs ih =>
    obtain ⟨ha, hg⟩ := (acting_next x h).resolve_left (ne_restart hx.1)
    exact ih ha hx.2 (hg.k hk)

/-- What the watchdog goes by, until Center takes note of the relay again. -/
theorem seen_exec {xs : Run} {c : Config State Env} {p : Nat} (h : Acting P c.code)
    (hx : (device P).Along (fun _ c d => d.state.log ≠ .boot :: c.state.log) xs c)
    (hs : (device P).Along (fun x c _ => ∀ i k, x = .run i → c.code ≠ hear :: k) xs c) (hp : Seen p c.state) :
    Seen p ((device P).exec xs c).state := by
  induction xs generalizing c with
  | nil => exact hp
  | cons x xs ih =>
    obtain ⟨ha, hk⟩ := (unheard_next x h hs.1).resolve_left (ne_restart hx.1)
    exact ih ha hx.2 hs.2 (hp.keeps hk)

/-- The contract of a call that sets `k`. -/
def setting : Contract State Env := (Spec.call (· = true) : Spec Env Bool).on State.k

/-- A handled `/` sets `k`. -/
theorem k_webSocketEvent {xs : Run} {s t : State} (h : finish react xs [webSocketEvent P "/"] s = some t) :
    t.k = true := by
  have hstable : Stable setting fun _ => True := ⟨fun _ _ => trivial, fun _ _ _ _ => trivial⟩
  have hany : ∀ {c : Sketch}, Deafens c → Triple setting (fun _ => True) c fun _ => True :=
    fun hc => .every hstable (fun _ _ => trivial) (fun _ _ _ _ _ _ _ => ⟨trivial, trivial⟩) hc
  have hset : ∀ f : State → State, Triple setting (fun _ => True) (.set f) fun _ => True :=
    fun f => .act hstable fun _ _ _ _ _ => ⟨trivial, trivial⟩
  have hb : Triple setting (fun _ => True) (webSocketEvent P "/") fun s => s.k = true := by
    refine .seq (hany ⟨deaf_broadcastTXT _ _, deaf_broadcastTXT _ _⟩) (.seq (hset _) (.seq (hset _) (.seq
      (hany (deaf_delay 10)) (.seq (hany (deaf_virtualWrite P _ _)) (.seq (hany (deaf_delay 20)) (.seq
      (R := fun s => s.k = true) ?_ (.skip ⟨fun _ _ => trivial, ?_⟩ fun _ hs => hs)))))))
    · exact .act hstable fun _ _ _ _ _ => ⟨trivial, rfl⟩
    · intro s t hs hst
      exact hst.trans hs
  have hk : ∀ r s, (react r s).k = s.k := fun r s => congrArg Gates.k (apace_react r s).gates
  exact Spec.Leads.finish (Q := (· = true)) (A := fun _ => True) hk hb trivial h

theorem lasts_set (f : State → State) : (.set f : Sketch).Lasts := trivial

theorem lasts_delay (ms : Nat) : (delay ms).Lasts := fun _ => trivial

theorem lasts_reply (pin : Nat) (l : List Value) : (reply pin l).Lasts := trivial

theorem lasts_blynkWrite (w : AppWrite) : (blynkWrite P w).Lasts := by
  obtain ⟨pin, param⟩ := w
  cases pin <;> simp [blynkWrite, blynkWriteV1, blynkWriteV11, blynkWriteV21, blynkWriteV22, blynkWriteV30,
    blynkWriteV32, blynkWriteV33, blynkWriteV34, writeWord, Code.when, Code.Lasts, lasts_set, lasts_delay, lasts_reply]

theorem lasts_blynkRun : (blynkRun P).Lasts := by
  intro i
  show (handleApp P i.app).Lasts
  cases i.app with
  | none => trivial
  | some w => exact ⟨lasts_set _, lasts_blynkWrite w⟩

theorem lasts_send (e : State → Event) : (send P e).Lasts := ⟨lasts_blynkRun, trivial⟩

theorem lasts_virtualWrite (pin : Nat) (l : State → List Value) : (virtualWrite P pin l).Lasts := lasts_send _

/-- The parts of `updateWebsocket`. -/
def answer (P : Platform) : Request → Sketch
  | .isAlcohol => answerIsAlcohol P
  | .notAlcohol => answerNotAlcohol P
  | .blockNow => answerBlockNow
  | .unblockNow => answerUnblockNow

theorem lasts_answer (P : Platform) (q : Request) : (answer P q).Lasts := by
  cases q <;> simp [answer, answerIsAlcohol, answerNotAlcohol, answerBlockNow, answerUnblockNow, reportAlcohol,
    reportNotAlcohol, updateToTable, readCountdown, broadcastTXT, Code.when, Code.Lasts, lasts_set, lasts_delay,
    lasts_send, lasts_virtualWrite]

/-- The requests that are answered before `r`. -/
def ahead (r : Request) : List Request := [Request.isAlcohol, .notAlcohol, .blockNow, .unblockNow].take r.rank

theorem updateWebsocket_split (P : Platform) (r : Request) : ∃ l,
    updateWebsocket P = .block ((ahead r).map (answer P) ++ answer P r :: l) := by
  cases r with
  | isAlcohol => exact ⟨[_, _, _, _], rfl⟩
  | notAlcohol => exact ⟨[_, _, _], rfl⟩
  | blockNow => exact ⟨[_, _], rfl⟩
  | unblockNow => exact ⟨[_], rfl⟩

/-- A call that finds the relay lost comes to the loop at the end of the watchdog. -/
theorem passes_updateWebsocket : Passes (fun s => lost s = true) waiting (updateWebsocket P) := by
  have hw : Passes (fun s => lost s = true) waiting (giveUp P) :=
    .right trivial (.right (fun _ => trivial) (.right (lasts_send _) (.left .here trivial)))
  exact .right (lasts_answer P .isAlcohol) (.right (lasts_answer P .notAlcohol) (.right (lasts_answer P .blockNow)
    (.right (lasts_answer P .unblockNow) (.left (.yes (fun _ _ h => h) hw) trivial))))

theorem keeps_updateWebsocket : (updateWebsocket P).Every fun _ => Keeps := by
  have hk : ∀ {c : Sketch}, Deafens c → c.Every fun _ => Keeps := fun hc => hc.mono fun _ _ _ h => h.toKeeps
  exact ⟨hk (deaf_answerIsAlcohol P), hk (deaf_answerNotAlcohol P), hk deaf_answerBlockNow,
    hk deaf_answerUnblockNow, ⟨keeps_giveUp P, trivial⟩, trivial⟩

theorem keeps_react (r : Outside) (s : State) : Keeps s (react r s) := (apace_react r s).deaf.toKeeps

/-- Such a call resets Center just if the two readings of the loop are less than a second apart. -/
theorem reads_of_lost {ws : Run} {t u : State} (hI : ∀ s, Keeps t s → Keeps s u → lost s = true)
    (he : Ends react ws [updateWebsocket P] t u) :
    ∃ s₁ s₂, Reads P ws t s₁ s₂ ∧
      ((∃ v, resets react ws [updateWebsocket P] t = some v) ↔ elapsed s₂.millis s₁.millis < 1000) := by
  obtain ⟨ys, zs, m, s, rfl, ha, hm⟩ := Passes.reached (l := []) (k := []) Keeps.refl (fun _ _ _ => Keeps.trans)
    keeps_react hI passes_updateWebsocket (by simp) (by simp)
    (by simpa using keeps_updateWebsocket) (Keeps.refl t) he
  replace ha : advance react ys [updateWebsocket P] t = some (waiting :: m, s) := ha
  have hz : Ends react zs (waiting :: m) s u := he.rest ha
  obtain ⟨rs, i, xs, l, s₁, rfl, hst, hx⟩ := hz.first (by simp [waiting])
  obtain ⟨rfl, rfl⟩ := Prod.mk.inj (Option.some.inj hst)
  obtain ⟨rs', j, xs', l', s₂, rfl, hst', hx'⟩ := hx.first (by simp)
  have hread : advance react (ys ++ rs.map .outside) [updateWebsocket P] t =
      some (waiting :: m, rs.foldl (fun s r => react r s) s) := by
    rw [advance_append ha, waiting, advance_outside]
  refine ⟨_, _, ⟨ys ++ rs.map .outside, i, rs', j, xs', m, by simp, hread, rfl⟩, ?_⟩
  have htest := ((advance_append ha).trans ((advance_append (advance_first rs hst)).trans (advance_first rs' hst')))
  obtain ⟨hl, rfl⟩ := Prod.mk.inj (Option.some.inj hst')
  have hws : ys ++ (rs.map .outside ++ .run i :: (rs'.map .outside ++ .run j :: xs')) =
      ys ++ ((rs.map .outside ++ [.run i]) ++ (rs'.map .outside ++ [.run j])) ++ xs' := by simp
  rw [hws] at he ⊢
  have hrest := he.rest htest
  rw [resets_append htest]
  by_cases hlt : elapsed (rs'.foldl (fun s r => react r s) (rs.foldl (fun s r => react r s) s)).millis
    (rs.foldl (fun s r => react r s) s).millis < 1000
  · have hreset : l' = .reset :: .whilst (fun _ s' => elapsed s'.millis
        (((rs.foldl (fun s r => react r s) s).millis : Int)).toNat < 1000) .reset :: m := by
      rw [← hl]
      exact if_pos (decide_eq_true hlt)
    rw [hreset] at hrest ⊢
    rcases hrest with hf | hv
    · simp [finish_reset] at hf
    · exact ⟨fun _ => hlt, fun _ => ⟨u, hv⟩⟩
  · have hend : l' = m := by
      rw [← hl]
      exact if_neg fun h => hlt (of_decide_eq_true h)
    rw [hend] at hrest ⊢
    rw [resets_of_finish (hrest.comes_back hm)]
    exact ⟨fun ⟨v, hv⟩ => by simp at hv, fun h => absurd h hlt⟩

/-- The handler of `/` leaves the lock alone. -/
theorem unlocked_webSocketEvent : (webSocketEvent P "/").Every fun _ s t => t.BLOCK = s.BLOCK := by
  have hpass : ∀ {c : Sketch}, Passing c → c.Every fun _ s t => t.BLOCK = s.BLOCK :=
    fun hc => hc.mono fun _ _ _ h => congrArg Gates.BLOCK h.gates
  exact ⟨⟨fun _ _ => rfl, fun _ _ => rfl⟩, fun _ _ => rfl, fun _ _ => rfl, hpass (passing_delay _),
    hpass (passing_virtualWrite P _ _), hpass (passing_delay _), fun _ _ => rfl, trivial⟩

/-- After the handled `/` the watchdog acts on the connection. -/
theorem k_of_silence {c : Config State Env} {ys zs : Run} {i : Env} {p : Nat} {t : State} (hc : Acting P c.code)
    (h : Silence P c ys i zs p t) : t.k = true := by
  obtain ⟨l, hl⟩ := h.slash
  obtain ⟨s, rfl⟩ := Config.of_code hl
  obtain ⟨m, hm⟩ := h.call
  have hx : (device P).Along (fun _ c d => d ≠ (device P).start ((device P).restart c.state))
      (ys ++ .run i :: zs) ⟨[webSocketEvent P "/"] ++ l, s⟩ :=
    h.unreset.imp fun x c hlog => ne_restart hlog
  rcases exec_cases hx with ⟨ys', zs', v, hxs, hf⟩ | ⟨a, n, v, ha, he⟩
  · have hfin : (device P).exec ys' ⟨webSocketEvent P "/" :: l, s⟩ = ⟨l, v⟩ := exec_of_finish (device P) hf l
    have hrest := h.unreset
    rw [hxs, Machine.along_append] at hrest
    have hk := k_exec (acting_exec ys' hc) hrest.2 (by rw [hfin]; exact k_webSocketEvent hf)
    rw [← Machine.exec_append, ← hxs, hm] at hk
    exact hk
  · obtain rfl : a = updateWebsocket P := by
      have hcode := congrArg Config.code (he.symm.trans hm)
      exact (List.cons.inj hcode).1
    -- the call does not begin inside the handler
    have hevery := every_advance (List.forall_mem_singleton.2 unlocked_webSocketEvent) ha _ List.mem_cons_self
    have hlock := hevery.1.1.2.2.1 {} { BLOCK := false, rom := fun _ => 0, flash := fun _ => 0 }
    exact absurd hlock (by decide)

/-- More than 25 seconds of silence are found out by the next call of `updateWebsocket`, which resets Center
just if its two readings of the clock are less than a second apart. -/
theorem reads_of_silence {flash : Nat → UInt8} {xs ys zs ws : Run} {i : Env} {p : Nat} {t u : State}
    (h : Silence P (after P flash xs) ys i zs p t) (hlo : p + 25000 < t.clock)
    (he : Ends react ws [updateWebsocket P] t u) (hhi : u.clock < p + 2 ^ 32) :
    ∃ s₁ s₂, Reads P ws t s₁ s₂ ∧
      ((∃ v, resets react ws [updateWebsocket P] t = some v) ↔ elapsed s₂.millis s₁.millis < 1000) := by
  have hc := acting_after (P := P) flash xs
  have hk := k_of_silence hc h
  have hseen : Seen p t := by
    obtain ⟨k, s, hs, rfl⟩ := h.noted
    obtain ⟨m, hm⟩ := h.call
    have hstep : (device P).exec (ys ++ [.run i]) (after P flash xs) =
        ⟨k, { s with previousCheckConnectOfCenterVsRelay := s.millis }⟩ := by
      rw [Machine.exec_append, hs]
      rfl
    have hun := h.unreset
    have hsplit : ys ++ .run i :: zs = ys ++ [.run i] ++ zs := by simp
    rw [hsplit, Machine.along_append] at hun
    have hp := seen_exec (p := s.clock) (acting_exec _ hc) hun.2 h.silent (by rw [hstep]; exact ⟨le_rfl, rfl⟩)
    rw [← Machine.exec_append, ← hsplit, hm] at hp
    exact hp
  refine reads_of_lost (fun s hs hsu => (hseen.keeps hs).lost (hs.k hk) ?_ ?_) he
  · have := hs.clock
    omega
  · have := hsu.clock
    omega

/-- The next statement is an assignment that stores the time of a note. -/
def storing : List Sketch → Bool
  | .act f :: _ => (f {} { clock := 1, rom := fun _ => 0, flash := fun _ => 0 }).previousCheckConnectOfCenterVsRelay = 1
  | _ => false

theorem silent_of_storing {xs : Run} {c : Config State Env}
    (h : (device P).Along (fun _ c _ => storing c.code = false) xs c) :
    (device P).Along (fun x c _ => ∀ i k, x = .run i → c.code ≠ hear :: k) xs c := by
  refine h.imp fun x c hc i k _ hk => ?_
  rw [hk] at hc
  exact Bool.noConfusion hc

/-- The first `/` arrives in the first round of `loop`. -/
def slashed : Run := idle 170 ++ [.run { frame := some "/" }] ++ idle 2

/-- Nothing of the relay until the call in the same round, 26 seconds later. -/
def quiet : Run := idle 15 ++ pause 26000 ++ idle 6

set_option maxRecDepth 10000 in
theorem silence_quiet : ∃ t, Silence bench (after bench (flashOf 5) slashed) (idle 4) {} quiet 2061 t ∧
    (after bench (flashOf 5) (slashed ++ (idle 4 ++ .run {} :: quiet))).state = t := by
  have hslash : (after bench (flashOf 5) slashed).code = webSocketEvent bench "/" :: _ := rfl
  have hnote : ((device bench).exec (idle 4) (after bench (flashOf 5) slashed)).code = hear :: _ := rfl
  have hcall : ((device bench).exec (idle 4 ++ .run {} :: quiet) (after bench (flashOf 5) slashed)).code =
    updateWebsocket bench :: _ := rfl
  obtain ⟨s, hs⟩ := Config.of_code hnote
  obtain ⟨t, ht⟩ := Config.of_code hcall
  refine ⟨t, ⟨⟨_, hslash⟩, by decide +kernel, ⟨_, s, hs, ?_⟩, silent_of_storing (by decide +kernel), ⟨_, ht⟩⟩, ?_⟩
  · have hclock : ((device bench).exec (idle 4) (after bench (flashOf 5) slashed)).state.clock = 2061 := by
      decide +kernel
    rwa [hs] at hclock
  · rw [after, Machine.exec_append]
    exact congrArg Config.state ht

end Center
