import TruckLock.CenterLost
import TruckLock.Relay

/-!
# The watchdog of the relay's connection

Center and the relay with their clocks. A round of the relay's `loop`, and a
frame in either direction, may fall into a step of Center, so each side has a
time of its own and the steps are only ordered by what one hears of the other.
-/
namespace RelayWatch

open Firmware Center

/-- A connection made at `since`, and who has noticed it. -/
structure Connection where
  since : Nat
  relay : Bool
  center : Bool

/-- `here` is the time at Center and `there` that of the relay's last round; `flights` are the frames
on their way to Center, oldest first, each with the time at which it was sent. -/
structure Net where
  center : Config Center.State Env
  relay : Relay.State
  here : Nat
  there : Nat
  connection : Option Connection
  flights : List (Nat × String)

/-- `hears` marks the statement of Center that takes note of the relay: of its connection at first,
of its oldest frame later. A round of the relay's `loop` comes `ms` after the last one, leaves the relay
as `r` and sends `frame`. -/
inductive Move where
  | center (x : Choice Env Outside) (hears : Bool)
  | relayLoop (ms : Nat) (r : Relay.State) (frame : Option String)
  | notice
  | deliver (payload : String)
  | connect (since : Nat)
  | drop
  | relayReset (ms : Nat) (r : Relay.State)

def Net.heard (n : Net) : Net :=
  match n.connection with
  | none => n
  | some c =>
    if c.center then { n with flights := n.flights.tail }
    else { n with connection := some { c with center := true } }

def Net.stepCenter (P : Platform) (x : Choice Env Outside) (hears : Bool) (n : Net) : Net :=
  let c := (device P).step x n.center
  let n' := { n with center := c, here := n.here + (c.state.clock - n.center.state.clock) }
  if c.state.log = .boot :: n.center.state.log then { n' with connection := none, flights := [] }
  else if hears then n'.heard else n'

/-- What the relay sends before it has noticed the connection is lost. -/
def Net.stepRelay (ms : Nat) (r : Relay.State) (frame : Option String) (n : Net) : Net :=
  let n' := { n with relay := r, there := n.there + ms }
  match frame, n.connection with
  | some f, some c => if c.relay then { n' with flights := n.flights ++ [(n'.there, f)] } else n'
  | _, _ => n'

def Net.step (P : Platform) : Move → Net → Net
  | .center x hears, n => n.stepCenter P x hears
  | .relayLoop ms r frame, n => n.stepRelay ms r frame
  | .notice, n =>
    { n with
      relay := Relay.webSocketEvent "/" n.relay
      connection := n.connection.map fun c => { c with relay := true } }
  | .deliver payload, n => { n with relay := Relay.webSocketEvent payload n.relay }
  | .connect since, n =>
    match n.connection with
    | none => { n with connection := some ⟨since, false, false⟩, flights := [] }
    | some _ => n
  | .drop, n => { n with connection := none, flights := [] }
  | .relayReset ms r, n =>
    { n with relay := r, there := n.there + ms, connection := none, flights := [] }

/-- The relay after a start and the first round of its `loop`. -/
def Started (r : Relay.State) : Prop := ∃ clock frame, Relay.loop (Relay.setup clock) = (r, frame)

/-- Both devices have started. -/
def Net.start (P : Platform) (flash : Nat → UInt8) (r : Relay.State) : Net where
  center := (device P).start (powerOn flash)
  relay := r
  here := 0
  there := 0
  connection := none
  flights := []

def Net.after (P : Platform) (flash : Nat → UInt8) (r : Relay.State) (ms : List Move) : Net :=
  steps (Net.step P) ms (.start P flash r)

/-- The last frame that Center has received. -/
def lastFrame : List Event → Option String
  | [] => none
  | .frame payload :: _ => some payload
  | _ :: l => lastFrame l

/-- While there is a connection, the relay's next round is due within `a` ms of the last, and nobody
is more than `b` ms behind with the connection or with a frame. -/
structure OnTime (a b : Nat) (n : Net) : Prop where
  round : n.connection ≠ none → n.here ≤ n.there + a
  center : ∀ c, n.connection = some c → c.center = false → n.here ≤ c.since + b
  relay : ∀ c, n.connection = some c → c.relay = false → n.there ≤ c.since + b
  frames : ∀ c, n.connection = some c → ∀ f ∈ n.flights, n.here ≤ f.1 + b

/-- What Center takes note of has been received and was sent before. -/
structure Noted (n : Net) : Prop where
  statement : ∃ k, n.center.code = hear :: k
  connection : ∀ c, n.connection = some c → c.center = false →
    c.since ≤ n.here ∧ lastFrame n.center.state.log = some "/"
  frame : ∀ c, n.connection = some c → c.center = true →
    ∃ f, n.flights.head? = some f ∧ f.1 ≤ n.here ∧ lastFrame n.center.state.log = some f.2

/-- What is assumed of one step. -/
structure Timely (a b : Nat) (m : Move) (n n' : Net) : Prop where
  round : ∀ ms r frame, m = .relayLoop ms r frame →
    ms ≤ a ∧ Relay.loop { n.relay with clock := n.relay.clock + ms } = (r, frame)
  started : ∀ ms r, m = .relayReset ms r → Started r
  noted : ∀ x, m = .center x true → (∃ i, x = .run i) ∧ Noted n
  onTime : OnTime a b n'

/-- From `s` on the relay has sent at the times `ts`, at most `g` ms apart, and its gate was last open
`e` ms before its last round at `there`. -/
def Covers (g there e : Nat) : Nat → List Nat → Prop
  | s, [] => there ≤ s + e
  | s, t :: ts => t ≤ s + g ∧ Covers g there e t ts

section

variable {g there e s s' : Nat} {ts : List Nat}

theorem Covers.mono (h : Covers g there e s ts) (hs : s ≤ s') : Covers g there e s' ts := by
  cases ts with
  | nil => exact Nat.le_trans h (Nat.add_le_add_right hs e)
  | cons t ts => exact ⟨Nat.le_trans h.1 (Nat.add_le_add_right hs g), h.2⟩

theorem Covers.wait (h : Covers g there e s ts) (ms : Nat) : Covers g (there + ms) (e + ms) s ts := by
  induction ts generalizing s with
  | nil =>
    rw [Covers] at h ⊢
    omega
  | cons t ts ih => exact ⟨h.1, ih h.2⟩

theorem Covers.send {ms : Nat} (h : Covers g there e s ts) (hg : e + ms ≤ g) :
    Covers g (there + ms) 0 s (ts ++ [there + ms]) := by
  induction ts generalizing s with
  | nil =>
    rw [Covers] at h
    refine ⟨?_, le_rfl⟩
    omega
  | cons t ts ih => exact ⟨h.1, ih h.2⟩

/-- How long ago the last sign of the relay can be. -/
theorem Covers.bound {a b here : Nat} (h : Covers (a + 20000) there e s ts) (he : e ≤ 20000)
    (ha : here ≤ there + a) (hb : ∀ t ∈ ts, here ≤ t + b) : here ≤ s + 20000 + a + b := by
  cases ts with
  | nil =>
    rw [Covers] at h
    omega
  | cons t ts =>
    have ht := hb t List.mem_cons_self
    have hs := h.1
    omega

end

/-- The relay's gate has been shut for at most 20 seconds. -/
structure Gated (r : Relay.State) : Prop where
  shut : elapsed (r.clock % 2 ^ 32) r.previousMillis ≤ 20000
  previousMillis : r.previousMillis < 2 ^ 32

theorem gated_loop {r r' : Relay.State} {frame : Option String} (h : r.previousMillis < 2 ^ 32)
    (hr : Relay.loop r = (r', frame)) : Gated r' := by
  rw [Relay.loop] at hr
  split at hr
  · obtain ⟨rfl, -⟩ := Prod.mk.inj hr
    refine ⟨?_, Nat.mod_lt _ (Nat.two_pow_pos 32)⟩
    show elapsed (r.clock % 2 ^ 32) (r.clock % 2 ^ 32) ≤ 20000
    rw [elapsed_mod le_rfl (by omega)]
    omega
  · rename_i hshut
    obtain ⟨rfl, -⟩ := Prod.mk.inj hr
    exact ⟨not_lt.1 hshut, h⟩

theorem gated_started {r : Relay.State} (h : Started r) : Gated r := by
  obtain ⟨clock, frame, hr⟩ := h
  refine gated_loop ?_ hr
  show 0 < 2 ^ 32
  omega

theorem gated_webSocketEvent {r : Relay.State} (h : Gated r) (payload : String) :
    Gated (Relay.webSocketEvent payload r) := by
  have hr : ∃ p B, Relay.webSocketEvent payload r = { r with relayPin := p, BLOCK := B } := by
    simp only [Relay.webSocketEvent, Relay.drive]
    split <;> split <;> split <;> split <;> exact ⟨_, _, rfl⟩
  obtain ⟨p, B, hr⟩ := hr
  rw [hr]
  exact ⟨h.shut, h.previousMillis⟩

/-- How long the relay's gate has been shut. -/
def shut (r : Relay.State) : Nat := elapsed (r.clock % 2 ^ 32) r.previousMillis

/-- Center heard of the relay `age` ms ago. -/
def HeardOf (s : Center.State) (age : Nat) : Prop :=
  age ≤ s.clock ∧ s.previousCheckConnectOfCenterVsRelay = (s.clock - age) % 2 ^ 32

/-- The relay's state while there is a connection: `q` is when Center last heard of it, or when the
connection was made. -/
structure Linked (a b : Nat) (n : Net) (c : Connection) (q : Nat) : Prop where
  since : c.since ≤ q
  waiting : c.center = false → q = c.since
  heard : c.center = true → ∃ age, q + age = n.here ∧ HeardOf n.center.state age
  sent : Covers (a + 20000) n.there (shut n.relay) (q + b) (n.flights.map Prod.fst)
  unnoticed : c.relay = false → n.flights = []

structure Inv (P : Platform) (a b : Nat) (n : Net) : Prop where
  acting : Acting P n.center.code
  attentive : ∀ c, n.connection = some c → c.center = true → Attentive P n.center.code
  clock : n.center.state.clock ≤ n.here
  gated : Gated n.relay
  linked : ∀ c, n.connection = some c → ∃ q, Linked a b n c q

section

variable {P : Platform} {a b : Nat} {n : Net}

theorem inv_start (flash : Nat → UInt8) {r : Relay.State} (hr : Started r) :
    Inv P a b (.start P flash r) := by
  refine ⟨⟨[], _, rfl, by simp, attentive_boot P⟩, fun c hc => ?_, le_rfl, gated_started hr, fun c hc => ?_⟩
  · simp [Net.start] at hc
  · simp [Net.start] at hc

/-- A connected relay has been heard of within the last 25 seconds. -/
theorem Inv.not_lost (h : Inv P a b n) (ht : OnTime a b n) (hab : a + 2 * b ≤ 5000) {c : Connection}
    (hc : n.connection = some c) (hh : c.center = true) : lost n.center.state = false := by
  obtain ⟨q, hq⟩ := h.linked c hc
  obtain ⟨age, hage, hle, hp⟩ := hq.heard hh
  have hbound : n.here ≤ q + b + 20000 + a + b := by
    refine hq.sent.bound h.gated.shut (ht.round (by rw [hc]; simp)) fun t htm => ?_
    obtain ⟨f, hf, rfl⟩ := List.mem_map.1 htm
    exact ht.frames c hc f hf
  have he : elapsed n.center.state.millis n.center.state.previousCheckConnectOfCenterVsRelay = age := by
    rw [hp, State.millis, elapsed_mod (Nat.sub_le _ _) (by omega)]
    omega
  rw [lost, he, Bool.and_eq_false_iff]
  exact .inl (decide_eq_false (by omega))

/-- One round of the relay. -/
theorem loop_cases {r : Relay.State} (h : Gated r) {ms : Nat} (hms : ms ≤ 5000) :
    (∃ f, Relay.loop { r with clock := r.clock + ms } =
      ({ r with clock := r.clock + ms, previousMillis := (r.clock + ms) % 2 ^ 32 }, some f) ∧
      20000 < elapsed (r.clock % 2 ^ 32) r.previousMillis + ms) ∨
    Relay.loop { r with clock := r.clock + ms } = ({ r with clock := r.clock + ms }, none) ∧
      elapsed ((r.clock + ms) % 2 ^ 32) r.previousMillis =
        elapsed (r.clock % 2 ^ 32) r.previousMillis + ms := by
  have he : elapsed ((r.clock + ms) % 2 ^ 32) r.previousMillis =
      elapsed (r.clock % 2 ^ 32) r.previousMillis + ms := by
    refine elapsed_add h.previousMillis ?_
    have := h.shut
    omega
  by_cases hg : 20000 < elapsed (r.clock % 2 ^ 32) r.previousMillis + ms
  · exact .inl ⟨_, by rw [Relay.loop, if_pos (he ▸ hg)], hg⟩
  · exact .inr ⟨by rw [Relay.loop, if_neg (he ▸ hg)], he⟩

/-- Center has lost the connection, or it is not there. -/
theorem inv_cut {n' : Net} (hc : n'.connection = none) (ha : Acting P n'.center.code)
    (hclock : n'.center.state.clock ≤ n'.here) (hg : Gated n'.relay) : Inv P a b n' :=
  ⟨ha, fun c h => by simp [hc] at h, hclock, hg, fun c h => by simp [hc] at h⟩

theorem Inv.clock_le (h : Inv P a b n) (clock : Nat) : clock ≤ n.here + (clock - n.center.state.clock) := by
  have := h.clock
  omega

/-- Center goes on without a note of the relay's. -/
theorem Inv.goes (h : Inv P a b n) {c : Config Center.State Env} (ha : Acting P c.code)
    (hs : Goes n.center.state c.state)
    (hat : ∀ k, n.connection = some k → k.center = true → Attentive P c.code) :
    Inv P a b { n with
      center := c
      here := n.here + (c.state.clock - n.center.state.clock) } := by
  have hclock := hs.clock
  refine ⟨ha, hat, h.clock_le _, h.gated, fun k hk => ?_⟩
  · obtain ⟨q, hq⟩ := h.linked k hk
    cases hcenter : k.center with
    | false =>
      exact ⟨q, hq.since, hq.waiting, fun hh => by simp [hcenter] at hh, hq.sent, hq.unnoticed⟩
    | true =>
      obtain ⟨age, hage, hle, hp⟩ := hq.heard hcenter
      rcases hs.previousCheck with hprev | hprev
      · refine ⟨q, hq.since, hq.waiting, fun _ => ⟨age + (c.state.clock - n.center.state.clock), ?_, ?_, ?_⟩,
          hq.sent, hq.unnoticed⟩
        · show q + _ = n.here + _
          omega
        · show _ ≤ c.state.clock
          omega
        · show c.state.previousCheckConnectOfCenterVsRelay = _
          rw [hprev, hp]
          congr 1
          show _ = c.state.clock - _
          omega
      · refine ⟨n.here + (c.state.clock - n.center.state.clock), ?_, fun hf => ?_,
          fun _ => ⟨0, rfl, Nat.zero_le _, hprev⟩, hq.sent.mono ?_, hq.unnoticed⟩
        · have := hq.since
          omega
        · simp [hcenter] at hf
        · omega

/-- Center takes note of the relay. -/
theorem Inv.hears (h : Inv P a b n) (hn : Noted n) {s : Center.State} {k : List Sketch}
    (hs : s = { n.center.state with previousCheckConnectOfCenterVsRelay := n.center.state.millis })
    (hk : n.center.code = hear :: k) : Inv P a b (Net.heard { n with center := ⟨k, s⟩ }) := by
  have hat : Attentive P k := fun c hc =>
    attentive_of_hear (hk ▸ h.acting) c (List.mem_cons_of_mem _ hc)
  have hacting : Acting P k := ⟨[], k, rfl, by simp, hat⟩
  have hclock : s.clock ≤ n.here := by
    rw [hs]
    exact h.clock
  have hheard : HeardOf s 0 := by
    rw [hs]
    exact ⟨Nat.zero_le _, rfl⟩
  cases hc : n.connection with
  | none => exact inv_cut rfl hacting hclock h.gated
  | some c =>
    obtain ⟨q, hq⟩ := h.linked c hc
    have hsent := hq.sent
    cases hcenter : c.center with
    | true =>
      obtain ⟨f, hf, hle, -⟩ := hn.frame c hc hcenter
      obtain ⟨fs, hfs⟩ := List.head?_eq_some_iff.1 hf
      rw [hfs, List.map_cons] at hsent
      simp only [Net.heard, hcenter, if_true, hfs, List.tail_cons]
      refine ⟨hacting, fun _ _ _ => hat, hclock, h.gated, fun c' hc' => ⟨n.here, ?_⟩⟩
      obtain rfl := Option.some.inj hc'
      refine ⟨?_, fun hw => ?_, fun _ => ⟨0, rfl, hheard⟩, hsent.2.mono (hle.trans (Nat.le_add_right _ _)), fun hr => ?_⟩
      · obtain ⟨age, hage, -⟩ := hq.heard hcenter
        have := hq.since
        show c.since ≤ n.here
        omega
      · simp [hcenter] at hw
      · exact absurd (hq.unnoticed hr) (by simp [hfs])
    | false =>
      obtain ⟨hsince, -⟩ := hn.connection c hc hcenter
      simp only [Net.heard, hcenter]
      refine ⟨hacting, fun _ _ _ => hat, hclock, h.gated, fun c' hc' => ⟨n.here, ?_⟩⟩
      obtain rfl := Option.some.inj hc'
      refine ⟨hsince, fun hw => by simp at hw, fun _ => ⟨0, rfl, hheard⟩, hsent.mono ?_, hq.unnoticed⟩
      rw [hq.waiting hcenter]
      exact Nat.add_le_add_right hsince b

theorem stepRelay_eq (ms : Nat) (r : Relay.State) (frame : Option String) (n : Net) :
    ∃ fs, n.stepRelay ms r frame =
      { n with relay := r, there := n.there + ms, flights := n.flights ++ fs } ∧
      ∀ c, n.connection = some c → fs = if c.relay then frame.toList.map (n.there + ms, ·) else [] := by
  cases frame with
  | none => exact ⟨[], by simp [Net.stepRelay], fun c _ => by simp⟩
  | some f =>
    cases hc : n.connection with
    | none => exact ⟨[], by simp [Net.stepRelay, hc], fun c h => by simp at h⟩
    | some c =>
      refine ⟨if c.relay then [(n.there + ms, f)] else [], ?_, fun c' hc' => ?_⟩
      · simp only [Net.stepRelay, hc]
        split <;> simp
      · obtain rfl := Option.some.inj hc'
        rfl

/-- A round of the relay. -/
theorem Inv.relayLoop (h : Inv P a b n) {ms : Nat} {r : Relay.State} {frame : Option String} (ha : a ≤ 5000)
    (hms : ms ≤ a) (hr : Relay.loop { n.relay with clock := n.relay.clock + ms } = (r, frame))
    (ht : OnTime a b (n.stepRelay ms r frame)) : Inv P a b (n.stepRelay ms r frame) := by
  have hg : Gated r := gated_loop (r := { n.relay with clock := n.relay.clock + ms }) h.gated.previousMillis hr
  have hshut : shut n.relay ≤ 20000 := h.gated.shut
  obtain ⟨fs, hn, hfs⟩ := stepRelay_eq ms r frame n
  rw [hn] at ht ⊢
  refine ⟨h.acting, h.attentive, h.clock, hg, fun c hc => ?_⟩
  obtain ⟨q, hq⟩ := h.linked c hc
  have hf := hfs c hc
  refine ⟨q, hq.since, hq.waiting, hq.heard, ?_, fun hu => ?_⟩
  · show Covers (a + 20000) (n.there + ms) (shut r) (q + b) ((n.flights ++ fs).map Prod.fst)
    rw [List.map_append]
    rcases loop_cases h.gated (by omega : ms ≤ 5000) with ⟨f, hl, -⟩ | ⟨hl, he⟩
    · obtain ⟨rfl, rfl⟩ := Prod.mk.inj (hl.symm.trans hr)
      have hzero : shut { n.relay with
          clock := n.relay.clock + ms, previousMillis := (n.relay.clock + ms) % 2 ^ 32 } = 0 := by
        rw [shut, elapsed_mod le_rfl (by omega)]
        omega
      rw [hzero]
      cases hu : c.relay with
      | true =>
        have hone : fs = [(n.there + ms, f)] := by simpa [hu] using hf
        rw [hone]
        exact hq.sent.send (by omega)
      | false =>
        have hnil : fs = [] := by simpa [hu] using hf
        have hthere : n.there + ms ≤ c.since + b := ht.relay c hc hu
        have hsince := hq.since
        rw [hq.unnoticed hu, hnil]
        show n.there + ms ≤ q + b + 0
        omega
    · obtain ⟨rfl, rfl⟩ := Prod.mk.inj (hl.symm.trans hr)
      have hnil : fs = [] := by simpa using hf
      rw [hnil, List.map_nil, List.append_nil, shut, he]
      exact hq.sent.wait ms
  · have hnil : fs = [] := by rw [hf, hu]; rfl
    rw [hq.unnoticed hu, hnil]
    rfl

theorem shut_webSocketEvent (payload : String) (r : Relay.State) :
    shut (Relay.webSocketEvent payload r) = shut r := by
  simp only [Relay.webSocketEvent, Relay.drive]
  split <;> split <;> split <;> split <;> rfl

/-- The relay handles a text. -/
theorem Inv.relayHears (h : Inv P a b n) (payload : String) :
    Inv P a b { n with relay := Relay.webSocketEvent payload n.relay } := by
  refine ⟨h.acting, h.attentive, h.clock, gated_webSocketEvent h.gated payload, fun c hc => ?_⟩
  obtain ⟨q, hq⟩ := h.linked c hc
  refine ⟨q, hq.since, hq.waiting, hq.heard, ?_, hq.unnoticed⟩
  rw [shut_webSocketEvent]
  exact hq.sent

theorem Inv.notice (h : Inv P a b n) : Inv P a b (Net.step P .notice n) := by
  have hr := h.relayHears "/"
  refine ⟨hr.acting, fun c hc hh => ?_, hr.clock, hr.gated, fun c hc => ?_⟩
  · obtain ⟨c', hc', rfl⟩ := Option.map_eq_some_iff.1 hc
    exact hr.attentive c' hc' hh
  · obtain ⟨c', hc', rfl⟩ := Option.map_eq_some_iff.1 hc
    obtain ⟨q, hq⟩ := hr.linked c' hc'
    exact ⟨q, hq.since, hq.waiting, hq.heard, hq.sent, fun hu => by simp at hu⟩

theorem Inv.connect (h : Inv P a b n) {since : Nat} (ht : OnTime a b (Net.step P (.connect since) n)) :
    Inv P a b (Net.step P (.connect since) n) := by
  cases hc : n.connection with
  | some c =>
    have he : Net.step P (.connect since) n = n := by simp [Net.step, hc]
    rw [he]
    exact h
  | none =>
    have he : Net.step P (.connect since) n = { n with connection := some ⟨since, false, false⟩, flights := [] } := by
      simp [Net.step, hc]
    rw [he] at ht ⊢
    refine ⟨h.acting, fun c hc' hh => ?_, h.clock, h.gated, fun c hc' => ⟨since, ?_⟩⟩
    · obtain rfl := Option.some.inj hc'
      simp at hh
    · obtain rfl := Option.some.inj hc'
      refine ⟨le_rfl, fun _ => rfl, fun hh => by simp at hh, ?_, fun _ => rfl⟩
      exact (ht.relay _ rfl rfl).trans (Nat.le_add_right _ _)

/-- A statement of Center, or what happens beside it. -/
theorem Inv.center (h : Inv P a b n) (hon : OnTime a b n) (hab : a + 2 * b ≤ 5000) {x : Choice Env Outside}
    {hears : Bool} (hnoted : hears = true → (∃ i, x = .run i) ∧ Noted n) : Inv P a b (n.stepCenter P x hears) := by
  rw [Net.stepCenter]
  split
  · rcases acting_next x h.acting with hr | ⟨ha, hg⟩
    · rw [hr]
      exact inv_cut rfl ⟨[], _, rfl, by simp, attentive_boot P⟩ (Nat.zero_le _) h.gated
    · exact inv_cut rfl ha (h.clock_le _) h.gated
  · rename_i hboot
    have hreset : (device P).step x n.center ≠ (device P).start (restart n.center.state) := by
      intro hr
      rw [hr] at hboot
      exact hboot rfl
    obtain ⟨ha, hg⟩ := (acting_next x h.acting).resolve_left hreset
    cases hears with
    | false =>
      refine h.goes ha hg fun c hc hh => ?_
      exact ((attentive_next x (h.attentive c hc hh) (h.not_lost hon hab hc hh)).resolve_left hreset).1
    | true =>
      obtain ⟨⟨i, rfl⟩, hn⟩ := hnoted rfl
      obtain ⟨k, hk⟩ := hn.statement
      obtain ⟨s, hs⟩ := Config.of_code hk
      have hstep : (device P).step (.run i) n.center =
          ⟨k, { n.center.state with previousCheckConnectOfCenterVsRelay := n.center.state.millis }⟩ := by
        rw [hs]
        rfl
      have hh := h.hears hn rfl hk
      rw [hstep]
      simpa using hh

/-- One step keeps the invariant. -/
theorem inv_step (hab : a + 2 * b ≤ 5000) (m : Move) (h : Inv P a b n) (hon : OnTime a b n)
    (ht : Timely a b m n (Net.step P m n)) : Inv P a b (Net.step P m n) := by
  cases m with
  | center x hears =>
    refine h.center hon hab fun hh => ?_
    subst hh
    exact ht.noted x rfl
  | relayLoop ms r frame =>
    obtain ⟨hms, hr⟩ := ht.round ms r frame rfl
    exact h.relayLoop (by omega) hms hr ht.onTime
  | notice => exact h.notice
  | deliver payload => exact h.relayHears payload
  | connect since => exact h.connect ht.onTime
  | drop => exact inv_cut rfl h.acting h.clock h.gated
  | relayReset ms r => exact inv_cut rfl h.acting h.clock (gated_started (ht.started ms r rfl))

/-- Along a timely run the invariant holds and nobody is late. -/
theorem along_inv (hab : a + 2 * b ≤ 5000) {flash : Nat → UInt8} {r : Relay.State} (hr : Started r) {ms : List Move}
    (ht : Along (Net.step P) (Timely a b) ms (.start P flash r)) :
    Along (Net.step P) (fun _ n n' => (Inv P a b n ∧ OnTime a b n) ∧ Inv P a b n' ∧ OnTime a b n') ms
      (.start P flash r) := by
  refine ht.keeps (I := fun n => Inv P a b n ∧ OnTime a b n) ⟨inv_start flash hr, ?_⟩ fun m n hn hm =>
    ⟨inv_step hab m hn.1 hn.2 hm, hm.onTime⟩
  exact ⟨fun h => absurd rfl h, fun c hc => by simp [Net.start] at hc, fun c hc => by simp [Net.start] at hc,
    fun c hc => by simp [Net.start] at hc⟩

end

theorem center_heard (n : Net) : n.heard.center = n.center := by
  unfold Net.heard
  split
  · rfl
  · split <;> rfl

theorem center_step (P : Platform) (m : Move) (n : Net) :
    (Net.step P m n).center = n.center ∨ ∃ x, (Net.step P m n).center = (device P).step x n.center := by
  cases m with
  | center x hears =>
    refine .inr ⟨x, ?_⟩
    simp only [Net.step, Net.stepCenter]
    split
    · rfl
    · split
      · exact center_heard _
      · rfl
  | relayLoop ms r frame =>
    obtain ⟨fs, hn, -⟩ := stepRelay_eq ms r frame n
    refine .inl ?_
    show (n.stepRelay ms r frame).center = n.center
    rw [hn]
  | connect since =>
    refine .inl ?_
    simp only [Net.step]
    split <;> rfl
  | _ => exact .inl rfl

/-- From `n` to `n'` the watchdog leaves a connection alone that Center has noticed: its test fails, and it does
not give the relay up. -/
def Spared (P : Platform) (n n' : Net) : Prop :=
  ∀ c, n.connection = some c → c.center = true → n'.center.state.log ≠ .relayLost :: n.center.state.log ∧
    ∀ i l, n.center.code = checkRelay P :: l →
      (device P).step (.run i) n.center = ⟨.skip :: l, n.center.state⟩

theorem Inv.spared {P : Platform} {a b : Nat} {n : Net} (h : Inv P a b n) (hon : OnTime a b n)
    (hab : a + 2 * b ≤ 5000) (m : Move) : Spared P n (Net.step P m n) := by
  intro c hc hh
  have hlost := h.not_lost hon hab hc hh
  constructor
  · rcases center_step P m n with hm | ⟨x, hm⟩
    · rw [hm]
      exact (List.cons_ne_self _ _).symm
    · rw [hm]
      rcases attentive_next x (h.attentive c hc hh) hlost with hr | ⟨-, hr⟩
      · rw [hr]
        intro hl
        exact Event.noConfusion (List.cons.inj hl).1
      · exact hr.log
  · intro i l hl
    obtain ⟨s, hs⟩ := Config.of_code hl
    rw [hs] at hlost ⊢
    simp only [Machine.step, checkRelay_eq, Code.step, hlost]
    rfl

/-- A connection that both sides serve in time is never given up. -/
theorem along_spared {P : Platform} {a b : Nat} (hab : a + 2 * b ≤ 5000) {flash : Nat → UInt8} {r : Relay.State}
    (hr : Started r) {ms : List Move} (ht : Along (Net.step P) (Timely a b) ms (.start P flash r)) :
    Along (Net.step P) (fun _ n n' => Spared P n n') ms (.start P flash r) :=
  (along_inv hab hr ht).imp fun m _ h => h.1.1.spared h.1.2 hab m

/-- Served connections are left alone. After more than 25 seconds of silence the next call of `updateWebsocket`
resets Center just if less than a second passes between `t = millis()` and the test of
`while (millis() - t < 1000)`. -/
theorem watchdog {P : Platform} {a b : Nat} (hab : a + 2 * b ≤ 5000) {flash : Nat → UInt8} {r : Relay.State}
    (hr : Started r) {ms : List Move} (ht : Along (Net.step P) (Timely a b) ms (.start P flash r))
    {xs ys zs ws : Run} {i : Env} {p : Nat} {t u : Center.State} (h : Silence P (after P flash xs) ys i zs p t)
    (hlo : p + 25000 < t.clock) (he : Ends react ws [updateWebsocket P] t u) (hhi : u.clock < p + 2 ^ 32) :
    Along (Net.step P) (fun _ n n' => Spared P n n') ms (.start P flash r) ∧
      ∃ s₁ s₂, Reads P ws t s₁ s₂ ∧
        ((∃ v, resets react ws [updateWebsocket P] t = some v) ↔ elapsed s₂.millis s₁.millis < 1000) :=
  ⟨along_spared hab hr ht, reads_of_silence h hlo he hhi⟩

/-- A move of which only the time is to be checked. -/
def Move.plain : Move → Bool
  | .center _ false | .notice | .deliver _ | .connect _ | .drop => true
  | _ => false

theorem timely_plain {a b : Nat} {m : Move} {n n' : Net} (hm : m.plain = true) (h : OnTime a b n') :
    Timely a b m n n' := by
  refine ⟨?_, ?_, ?_, h⟩
  · rintro ms r frame rfl
    simp [Move.plain] at hm
  · rintro ms r rfl
    simp [Move.plain] at hm
  · rintro x rfl
    simp [Move.plain] at hm

theorem onTime_iff {a b : Nat} {n : Net} : OnTime a b n ↔ ∀ c ∈ n.connection, n.here ≤ n.there + a ∧
    (c.center = false → n.here ≤ c.since + b) ∧ (c.relay = false → n.there ≤ c.since + b) ∧
    ∀ f ∈ n.flights, n.here ≤ f.1 + b := by
  constructor
  · intro h c hc
    exact ⟨h.round (by rw [hc]; simp), h.center c hc, h.relay c hc, h.frames c hc⟩
  · intro h
    refine ⟨fun hn => ?_, fun c hc => (h c hc).2.1, fun c hc => (h c hc).2.2.1, fun c hc => (h c hc).2.2.2⟩
    obtain ⟨c, hc⟩ := Option.ne_none_iff_exists'.1 hn
    exact (h c hc).1

instance (a b : Nat) (n : Net) : Decidable (OnTime a b n) := decidable_of_iff _ onTime_iff.symm

/-- The relay has been on for two seconds when Center, at the head of its `loop`, gets its connection. -/
def connecting : List Move :=
  List.replicate 170 (.center (.run {}) false) ++ [.connect 2061, .center (.run { frame := some "/" }) false] ++
    List.replicate 6 (.center (.run {}) false)

/-- The relay notices the connection, and Center calls `updateWebsocket`. -/
def connected : List Move := .notice :: List.replicate 40 (.center (.run {}) false)

def waited : Relay.State := { clock := 2000 }

def twoRounds : List Move := [.relayLoop 1000 { clock := 1000 } none, .relayLoop 1000 waited none]

def heardOnce : List Move := twoRounds ++ (connecting ++ .center (.run {}) true :: connected)

set_option maxRecDepth 10000 in
theorem heardOnce_timely : Along (Net.step bench) (Timely 1000 2000) heardOnce
    (.start bench (flashOf 5) (Relay.setup 0)) := by
  have hplain : ∀ {ms : List Move} {n : Net}, Along (Net.step bench) (fun m _ n' => m.plain = true ∧
      OnTime 1000 2000 n') ms n → Along (Net.step bench) (Timely 1000 2000) ms n :=
    fun h => h.imp fun m n hm => timely_plain hm.1 hm.2
  have hround : ∀ ms r (n : Net), ms ≤ 1000 → n.connection = none →
      Relay.loop { n.relay with clock := n.relay.clock + ms } = (r, none) →
      Timely 1000 2000 (.relayLoop ms r none) n (n.stepRelay ms r none) := by
    intro ms r n hms hc hr
    refine ⟨?_, fun _ _ h => by simp at h, fun _ h => by simp at h, onTime_iff.2 fun c h => ?_⟩
    · rintro _ _ _ ⟨⟩
      exact ⟨hms, hr⟩
    · have hsome : n.connection = some c := h
      rw [hc] at hsome
      simp at hsome
  refine (along_append _ _ _).2 ⟨⟨hround _ _ _ le_rfl rfl (by decide), hround _ _ _ le_rfl rfl (by decide), trivial⟩, ?_⟩
  refine (along_append _ _ _).2 ⟨hplain (by decide +kernel), ?_, hplain (by decide +kernel)⟩
  have hcode : (steps (Net.step bench) connecting (steps (Net.step bench) twoRounds
      (.start bench (flashOf 5) (Relay.setup 0)))).center.code = hear :: _ := rfl
  have hconnection : (steps (Net.step bench) connecting (steps (Net.step bench) twoRounds
      (.start bench (flashOf 5) (Relay.setup 0)))).connection = some ⟨2061, false, false⟩ := rfl
  refine ⟨fun _ _ _ h => by simp at h, fun _ _ h => by simp at h, fun x hx => ⟨⟨{}, ?_⟩, ⟨_, hcode⟩, ?_, ?_⟩,
    by decide +kernel⟩
  · cases hx
    rfl
  · intro c hc _
    obtain rfl := Option.some.inj (hconnection.symm.trans hc)
    decide +kernel
  · intro c hc hh
    obtain rfl := Option.some.inj (hconnection.symm.trans hc)
    simp at hh

set_option maxRecDepth 10000 in
theorem watchdog_heardOnce :
    Along (Net.step bench) (fun _ n n' => Spared bench n n') heardOnce (.start bench (flashOf 5) (Relay.setup 0)) ∧
    ∃ t s₁ s₂, Silence bench (after bench (flashOf 5) slashed) (idle 4) {} quiet 2061 t ∧
      Reads bench (idle 27) t s₁ s₂ ∧ elapsed s₂.millis s₁.millis < 1000 := by
  obtain ⟨t, hsilence, ht⟩ := silence_quiet
  have hreset : (resets react (idle 27) [updateWebsocket bench]
    (after bench (flashOf 5) (slashed ++ (idle 4 ++ .run {} :: quiet))).state).isSome = true := by decide +kernel
  have hclock : (after bench (flashOf 5) (slashed ++ (idle 4 ++ .run {} :: quiet))).state.clock = 28091 := by
    decide +kernel
  have hend : ((resets react (idle 27) [updateWebsocket bench]
    (after bench (flashOf 5) (slashed ++ (idle 4 ++ .run {} :: quiet))).state).map State.clock) = some 28141 := by
    decide +kernel
  rw [ht] at hreset hclock hend
  obtain ⟨u, hu⟩ := Option.isSome_iff_exists.1 hreset
  rw [hu] at hend
  have huclock : u.clock = 28141 := Option.some.inj hend
  obtain ⟨hspared, s₁, s₂, hreads, hiff⟩ := watchdog (by omega : 1000 + 2 * 2000 ≤ 5000) ⟨0, none, by decide⟩
    heardOnce_timely hsilence (by omega) (.inr hu) (by omega)
  exact ⟨hspared, t, s₁, s₂, hsilence, hreads, hiff.1 ⟨u, hu⟩⟩

/-- Ten presses of the button between the two readings. -/
def pressedThrough : Run := idle 25 ++ (List.replicate 10 press).flatten ++ idle 3

set_option maxRecDepth 10000 in
/-- After a silence of 26 seconds the call comes back. -/
theorem watchdog_pressedThrough : ¬ ∀ (P : Platform) (flash : Nat → UInt8) (xs ys zs ws : Run) (i : Env) (p : Nat)
    (t u : Center.State), Silence P (after P flash xs) ys i zs p t → p + 25000 < t.clock →
    Ends react ws [updateWebsocket P] t u → u.clock < p + 2 ^ 32 →
    ∃ v, resets react ws [updateWebsocket P] t = some v := by
  intro h
  obtain ⟨t, hsilence, ht⟩ := silence_quiet
  have hfinish : ((finish react pressedThrough [updateWebsocket bench]
    (after bench (flashOf 5) (slashed ++ (idle 4 ++ .run {} :: quiet))).state).map State.clock) = some 29241 := by
    decide +kernel
  have hclock : (after bench (flashOf 5) (slashed ++ (idle 4 ++ .run {} :: quiet))).state.clock = 28091 := by
    decide +kernel
  rw [ht] at hfinish hclock
  obtain ⟨u, hu, huclock⟩ := Option.map_eq_some_iff.1 hfinish
  obtain ⟨v, hv⟩ := h bench (flashOf 5) slashed (idle 4) quiet pressedThrough {} 2061 t u hsilence (by omega) (.inl hu)
    (by omega)
  rw [resets_of_finish hu] at hv
  simp at hv

end RelayWatch
