import TruckLock.RelayOpen
import TruckLock.WebSocketsLink

/-!
# Center and the relay, byte by byte

The connection between the two devices as the WebSockets library has it: Center
and the relay each hold one end of it, and the commands are bytes on a stream
that may arrive in any pieces, late or never. What the two devices do over it,
they can also do over the connection that carries whole texts.
-/
namespace RelayWire

open Firmware Center WebSockets WSclient

/-- The characters of the commands are bytes. -/
def bytesOf (t : String) : Bytes := t.toList.map fun c => byteOf c.toNat

def textOf (b : Bytes) : String := String.ofList (b.map fun x => Char.ofNat x.toNat)

/-- `server` is Center's end of the connection, `client` the relay's. -/
structure Wire where
  center : Config Center.State Env
  relay : Relay.State
  server : WSclient
  client : WSclient

/-- `join` marks the event `/` of the relay's own connection; `opened` is the moment at which the relay's end has
read the answer to its handshake. -/
inductive Move where
  | center (x : Choice Env Outside) (join : Bool) (e : Surroundings)
  | opened
  | relayLoop (ms : Nat) (arrived : Bool) (e : Surroundings)
  | lost (server client : Bool)
  | relayReset (clock : Nat)

/-- A new connection of the relay. -/
def joining (events : List WebSockets.Event) : WSclient :=
  { cIsClient := true, status := .header, tcp := true, net := { connected := true }, events := events }

/-- Center's end of a new connection: the handshake ends with a ping. -/
def accepted (e : Surroundings) : Bool × WSclient := ((opened false).within e).sendFrame .ping [] true

/-- What an event at Center does to its end. A reset loses what is on its way. -/
def Wire.hear (join : Bool) (e : Surroundings) (w : Wire) : Center.Event → Wire
  | .boot =>
    { w with server := { cIsClient := false }, client := { w.client with net := { w.client.net with rx := [] } } }
  | .frame payload =>
    if payload = "/" ∧ join = true ∧ w.client.tcp = false then
      { w with server := (accepted e).2, client := (joining w.client.events).arrive (accepted e).2.net.tx }
    else w
  | .broadcast c _ =>
    let s := ((w.server.within e).sendTXT (bytesOf c.text)).2
    { w with server := s, client := w.client.arrive (s.net.tx.drop w.server.net.tx.length) }
  | _ => w

def Wire.stepCenter (P : Platform) (x : Choice Env Outside) (join : Bool) (e : Surroundings) (w : Wire) : Wire :=
  let c := (device P).step x w.center
  let w' := { w with center := c }
  if w.center.state.log.length < c.state.log.length then
    match c.state.log with
    | l :: _ => w'.hear join e l
    | [] => w'
  else w'

/-- The calls of the relay's callback. -/
def Wire.tell (w : Wire) (client : WSclient) : Wire :=
  { w with
    client := client
    relay := (client.events.drop w.client.events.length).foldl
      (fun r e => Relay.webSocketEvent (textOf e.text) r) w.relay }

/-- What the relay's gate leaves, and its text if it sends one. -/
def Wire.send (w : Wire) : Relay.State × Option String → Wire
  | (relay, none) => { w with relay := relay }
  | (relay, some t) => { w with relay := relay }.tell (w.client.sendTXT (bytesOf t)).2

def Wire.relayLoop (ms : Nat) (arrived : Bool) (e : Surroundings) (w : Wire) : Wire :=
  (w.tell ((w.client.within e).loop arrived)).send
    (Relay.loop { (w.tell ((w.client.within e).loop arrived)).relay with
      clock := (w.tell ((w.client.within e).loop arrived)).relay.clock + ms })

def Wire.step (P : Platform) : Move → Wire → Wire
  | .center x join e, w => w.stepCenter P x join e
  | .opened, w =>
    if w.client.tcp = true ∧ w.client.status = .header then
      w.tell (w.client.headerDone.runCbEvent .connected (some (bytesOf "/")))
    else w
  | .relayLoop ms arrived e, w => w.relayLoop ms arrived e
  | .lost server client, w => { w with server := w.server.lose server, client := w.client.lose client }
  | .relayReset clock, w => { w with relay := Relay.setup clock, client := { cIsClient := true } }

def Wire.start (P : Platform) (flash : Nat → UInt8) : Wire where
  center := (device P).start (powerOn flash)
  relay := Relay.setup 0
  server := { cIsClient := false }
  client := { cIsClient := true }

def Wire.after (P : Platform) (flash : Nat → UInt8) (ms : List Move) : Wire :=
  steps (Wire.step P) ms (.start P flash)

/-- Center's part of a run. -/
def choices : List Move → Run
  | [] => []
  | .center x _ _ :: ms => x :: choices ms
  | _ :: ms => choices ms

/-- Writing a command to a connection that is up does not stall for five seconds: it completes, or the
connection is lost. -/
def Wire.Completes (c : Command) (e : Surroundings) (w : Wire) : Prop :=
  w.server.tcp = true → w.server.net.connected = true → .late ∉ e.looks ∧
    (((w.server.within e).sendTXT (bytesOf c.text)).1 = true ∨
      ((w.server.within e).sendTXT (bytesOf c.text)).2.net.connected = false)

instance (c : Command) (e : Surroundings) (w : Wire) : Decidable (w.Completes c e) :=
  inferInstanceAs (Decidable (_ → _ → _))

/-- So does writing the ping. -/
def Accepts (e : Surroundings) : Prop :=
  .late ∉ e.looks ∧ ((accepted e).1 = true ∨ (accepted e).2.net.connected = false)

instance (e : Surroundings) : Decidable (Accepts e) := inferInstanceAs (Decidable (_ ∧ _))

/-- A step in which Center's writing completes, if it writes. -/
def Steady (m : Move) (w w' : Wire) : Prop :=
  match m with
  | .center _ join e =>
    match w'.center.state.log with
    | .broadcast c _ :: log => log = w.center.state.log → w.Completes c e
    | .frame payload :: log =>
      log = w.center.state.log → payload = "/" → join = true → w.client.tcp = false → Accepts e
    | _ => True
  | _ => True

instance (m : Move) (w w' : Wire) : Decidable (Steady m w w') := by
  unfold Steady
  split
  · split
    · exact inferInstance
    · exact inferInstance
    · exact .isTrue trivial
  · exact .isTrue trivial

def Command.message (c : Command) : Message :=
  ⟨.text, true, bytesOf c.text, by cases c <;> decide⟩

def ping : Message := ⟨.ping, true, [], by decide⟩

/-- The relay's callback reads the command again. -/
theorem text_message (c : Command) : textOf (Command.message c).event.text = c.text := by
  cases c <;> rfl

theorem text_slash : textOf (bytesOf "/") = "/" := rfl

/-- The relay's end in its handshake or between two frames. -/
structure Ready (s : WSclient) : Prop where
  status : s.status = .header ∨ s.status = .connected
  tcp : s.tcp = true
  size : s.cWsRXsize = 0
  buffer : s.cWsHeader.length = maxHeaderSize

/-- Center's end can still send. -/
structure Alive (s : WSclient) : Prop where
  tcp : s.tcp = true
  connected : s.net.connected = true

/-- The ping and the commands on the stream, and what is left of a frame behind them. -/
structure Carrying (w : Wire) (n : RelayLink.Net) (cs : List Command) (lead left : List Frame) (tail : Bytes) :
    Prop where
  ready : Ready w.client
  stream : w.client.net.rx = framing.stream (lead ++ left) ++ tail
  first : lead = [] ∨ ∃ f : Frame, lead = [f] ∧ f.message = ping
  commands : left.map Frame.message = cs.map Command.message
  unread : Frame.read tail = none
  queue : cs.map Command.text <+: n.queue
  up : cs ≠ [] → n.link = .up
  alive : Alive w.server → n.link = .up ∧ n.queue = cs.map Command.text ∧ tail = []

/-- The connection with the texts has the same devices at its ends, and the same commands on their way. -/
structure Matches (w : Wire) (n : RelayLink.Net) : Prop where
  center : n.center = w.center
  relay : n.relay = w.relay
  server : w.server.tcp = true → w.server.status = .connected
  client : w.client.tcp = false ∧ n.link = .down ∨ ∃ cs lead left tail, Carrying w n cs lead left tail

section

variable {w : Wire} {n : RelayLink.Net} {client : WSclient} {e : Surroundings}

theorem tell_same (h : client.events = w.client.events) : w.tell client = { w with client := client } := by
  simp [Wire.tell, h]

theorem tell_one {v : WebSockets.Event} (h : client.events = w.client.events ++ [v]) :
    w.tell client = { w with client := client, relay := Relay.webSocketEvent (textOf v.text) w.relay } := by
  simp [Wire.tell, h]

/-- The moves of one connection that match a step of the other, and leave Center alone. -/
def Follows (P : Platform) (w : Wire) (n : RelayLink.Net) : Prop :=
  ∃ ns, RelayLink.choices ns = [] ∧ Matches w (ns.foldl (fun n m => n.step P m) n)

theorem Follows.trans {P : Platform} (ns : List RelayLink.Move) (hns : RelayLink.choices ns = []) {v : Wire}
    (h : Follows P v (ns.foldl (fun n m => n.step P m) n)) : Follows P v n := by
  obtain ⟨ns', hns', hm⟩ := h
  refine ⟨ns ++ ns', ?_, by rwa [List.foldl_append]⟩
  rw [RelayLink.choices_append, hns, hns']
  rfl

theorem follows_closed (P : Platform) (h : Matches w n) {s : WSclient} (hs : s.events = w.client.events)
    (hc : Closed s client) : Follows P (w.tell client) n := by
  refine ⟨[.notice true, .drop], rfl, ?_⟩
  rw [tell_one (v := ⟨.disconnected, none⟩) (by rw [hc.events, hs])]
  exact ⟨h.center, h.relay, h.server, .inl ⟨hc.tcp, rfl⟩⟩

theorem follows_same (P : Platform) {c : WSclient} (hc : Matches { w with client := c } n)
    (he : c.events = w.client.events) : Follows P (w.tell c) n :=
  ⟨[], rfl, by rw [tell_same he]; exact hc⟩

/-- The connection does something that the stream does not show. -/
theorem Carrying.unmoved {cs : List Command} {lead left : List Frame} {tail : Bytes}
    (h : Carrying w n cs lead left tail) {c : WSclient} (hr : Ready c) (hrx : c.net.rx = w.client.net.rx) :
    Carrying { w with client := c } n cs lead left tail :=
  ⟨hr, hrx.trans h.stream, h.first, h.commands, h.unread, h.queue, h.up, h.alive⟩

/-- One call of the library's `loop` at the relay. -/
theorem follows_loop (P : Platform) (h : Matches w n) (arrived : Bool) (e : Surroundings) :
    Follows P (w.tell ((w.client.within e).loop arrived)) n := by
  rcases h.client with ⟨htcp, hdown⟩ | ⟨cs, lead, left, tail, hc⟩
  · rw [loop_shut (s := w.client.within e) htcp]
    exact follows_same P ⟨h.center, h.relay, h.server, .inl ⟨htcp, hdown⟩⟩ rfl
  have hready : Ready (w.client.within e) := ⟨hc.ready.status, hc.ready.tcp, hc.ready.size, hc.ready.buffer⟩
  have hsame : Matches { w with client := w.client.within e } n :=
    ⟨h.center, h.relay, h.server, .inr ⟨cs, lead, left, tail, hc.unmoved hready rfl⟩⟩
  by_cases hconn : (w.client.within e).net.connected = true
  · rcases hc.ready.status with hst | hst
    · rw [loop_header (s := w.client.within e) hc.ready.tcp hst hconn]
      exact follows_same P hsame rfl
    have hopen : Open (w.client.within e) := ⟨hst, hc.ready.tcp, hc.ready.size, hc.ready.buffer⟩
    by_cases hrx : (arrived && !(w.client.within e).net.rx.isEmpty) = true
    · have hloop : (w.client.within e).loop arrived = (w.client.within e).handleWebsocket := by
        rw [loop_connected hopen hconn, if_pos hrx]
      have ho := outcome_handleWebsocket (hopen.reading hconn) hopen.size
      rw [← hloop] at ho
      rcases ho with ⟨f, r, hread, -, hr⟩ | ⟨hcl, -⟩
      · have hstream : (w.client.within e).net.rx = framing.stream (lead ++ left) ++ tail := hc.stream
        rw [hstream] at hread
        have hready' : Ready ((w.client.within e).loop arrived) := ⟨.inr hr.status, hr.tcp, hr.size, hr.buffer⟩
        have hfront : ∀ {g : Frame} {gs : List Frame}, lead ++ left = g :: gs →
            f = g ∧ ((w.client.within e).loop arrived).net.rx = framing.stream gs ++ tail := by
          intro g gs hg
          have hread' := framing.read_write g (framing.stream gs ++ tail)
          rw [hg, Framing.stream_cons, List.append_assoc] at hread
          obtain ⟨rfl, rfl⟩ := Prod.mk.inj (Option.some.inj (hread.symm.trans hread'))
          exact ⟨rfl, hr.rx⟩
        rcases hc.first with rfl | ⟨g, rfl, hg⟩
        · cases left with
          | nil =>
            rw [List.append_nil, Framing.stream_nil, List.nil_append, hc.unread] at hread
            exact absurd hread (by simp)
          | cons g left =>
            obtain ⟨rfl, hrest⟩ := hfront rfl
            have hcommands := hc.commands
            cases cs with
            | nil => simp at hcommands
            | cons c cs =>
              obtain ⟨hm, hms⟩ := List.cons.inj hcommands
              have hup := hc.up (by simp)
              obtain ⟨q, hq⟩ := hc.queue
              refine ⟨[.deliver], rfl, ?_⟩
              have hev : (Event.of f.opCode f.fin f.payload) = (Command.message c).event := congrArg Message.event hm
              rw [tell_one (v := (Command.message c).event) (by rw [hr.events, hev]; rfl), text_message]
              have hstep : n.step P .deliver =
                  { n with relay := Relay.webSocketEvent c.text n.relay, queue := cs.map Command.text ++ q } := by
                simp only [RelayLink.Net.step, hup, ← hq, List.map_cons, List.cons_append]
              simp only [List.foldl_cons, List.foldl_nil, hstep]
              refine ⟨h.center, congrArg (Relay.webSocketEvent c.text) h.relay, h.server, .inr ⟨cs, [], left, tail,
                hready', hrest, .inl rfl, hms, hc.unread, List.prefix_append _ _, fun _ => hup, fun ha => ?_⟩⟩
              obtain ⟨hl, hqueue, ht⟩ := hc.alive ha
              refine ⟨hl, ?_, ht⟩
              rw [← hq, List.map_cons, List.cons_append] at hqueue
              exact (List.cons.inj hqueue).2
        · -- the relay's callback gets an empty text
          obtain ⟨rfl, hrest⟩ := hfront rfl
          refine ⟨[.notice true], rfl, ?_⟩
          have hev : (Event.of f.opCode f.fin f.payload) = ping.event := congrArg Message.event hg
          rw [tell_one (v := ping.event) (by rw [hr.events, hev]; rfl)]
          exact ⟨h.center, congrArg (Relay.webSocketEvent "") h.relay, h.server, .inr ⟨cs, [], left, tail,
            hready', hrest, .inl rfl, hc.commands, hc.unread, hc.queue, hc.up, hc.alive⟩⟩
      · exact follows_closed P h (s := w.client.within e) rfl hcl
    · have hloop : (w.client.within e).loop arrived = w.client.within e := by
        rw [loop_connected hopen hconn, if_neg hrx]
      rw [hloop]
      exact follows_same P hsame rfl
  · exact follows_closed P h (s := w.client.within e) rfl (loop_lost (s := w.client.within e) hc.ready.tcp
      (by rcases hc.ready.status with hst | hst <;> simp [WSclient.within, hst]) (Bool.eq_false_iff.2 hconn) arrived)

/-- The relay writes. -/
theorem follows_sendTXT (P : Platform) (h : Matches w n) (payload : Bytes) :
    Follows P (w.tell (w.client.sendTXT payload).2) n := by
  rcases h.client with ⟨htcp, hdown⟩ | ⟨cs, lead, left, tail, hc⟩
  · have hsend : w.client.sendTXT payload = (false, w.client) := by
      unfold WSclient.sendTXT clientIsConnected
      rw [htcp]
      rfl
    rw [hsend]
    exact follows_same P h rfl
  have hst : w.client.status ≠ .notConnected := by
    rcases hc.ready.status with hst | hst <;> simp [hst]
  by_cases hconn : w.client.net.connected = true
  · have hsend : w.client.sendTXT payload = w.client.sendFrame .text payload true := by
      rw [WSclient.sendTXT, clientIsConnected_held hc.ready.tcp hst hconn]
      rfl
    obtain ⟨hcl, hrx, -⟩ := sent_sendFrame w.client .text payload true
    rw [hsend]
    generalize (w.client.sendFrame .text payload true).2 = c at hcl hrx ⊢
    obtain ⟨net, rfl⟩ : ∃ net, c = { w.client with net := net } := ⟨_, hcl⟩
    exact follows_same P ⟨h.center, h.relay, h.server, .inr ⟨cs, lead, left, tail, hc.unmoved
      ⟨hc.ready.status, hc.ready.tcp, hc.ready.size, hc.ready.buffer⟩ hrx⟩⟩ rfl
  · have hsend : w.client.sendTXT payload = (false, w.client.disconnect) := by
      rw [WSclient.sendTXT, clientIsConnected_lost hc.ready.tcp hst (Bool.eq_false_iff.2 hconn)]
      rfl
    rw [hsend]
    exact follows_closed P h rfl (closed_disconnect hc.ready.tcp)

theorem disconnect_tx (s : WSclient) : s.disconnect.net.tx = s.net.tx := by
  unfold disconnect
  split
  · split <;> rfl
  · rfl

/-- What Center's end does with a command. -/
theorem broadcast_cases (h : w.server.tcp = true → w.server.status = .connected) (c : Command) (e : Surroundings)
    (hw : w.Completes c e) :
    let s := ((w.server.within e).sendTXT (bytesOf c.text)).2
    let b := s.net.tx.drop w.server.net.tx.length
    (s.tcp = true → s.status = .connected) ∧
      (¬ Alive w.server ∧ ¬ Alive s ∧ b = [] ∨
        Alive w.server ∧ ((∃ f : Frame, f.message = Command.message c ∧ b = f.write) ∨
          ¬ Alive s ∧ Frame.read b = none)) := by
  intro s b
  by_cases ha : Alive w.server
  · have hst := h ha.tcp
    have hsend : (w.server.within e).sendTXT (bytesOf c.text) =
        (w.server.within e).sendFrame .text (bytesOf c.text) true := by
      rw [WSclient.sendTXT, clientIsConnected_held (s := w.server.within e) ha.tcp
        (by simp [WSclient.within, hst]) ha.connected]
      rfl
    obtain ⟨hl, hok⟩ := hw ha.tcp ha.connected
    rw [hsend] at hok
    have hcases := sending_cases (l := ⟨w.server, w.client, []⟩) (m := Command.message c) ha.tcp hl hok
    have hs : s = ((w.server.within e).sendFrame .text (bytesOf c.text) true).2 := congrArg Prod.snd hsend
    have hb : b = Link.written ⟨w.server, w.client, []⟩ (Command.message c) e := by
      show s.net.tx.drop w.server.net.tx.length = _
      rw [hs]
      rfl
    have hcl := (sent_sendFrame (w.server.within e) .text (bytesOf c.text) true).client
    refine ⟨fun _ => ?_, .inr ⟨ha, ?_⟩⟩
    · rw [hs, hcl]
      exact hst
    rcases hcases with ⟨-, -, key, hkey, hr⟩ | ⟨-, hlost, hread, -⟩
    · have hsmall : (bytesOf c.text).length ≤ maxDataSize := by cases c <;> decide
      exact .inl ⟨⟨true, .text, key, bytesOf c.text, hkey, hsmall⟩, rfl, hb.trans hr⟩
    · refine .inr ⟨fun ha' => ?_, hb ▸ hread⟩
      have hconn := ha'.connected
      rw [hs] at hconn
      exact absurd (hconn.symm.trans hlost) (by simp)
  · have hs : s.tcp = false ∧ s.net.tx = w.server.net.tx := by
      show ((w.server.within e).sendTXT (bytesOf c.text)).2.tcp = false ∧
        ((w.server.within e).sendTXT (bytesOf c.text)).2.net.tx = w.server.net.tx
      cases htcp : w.server.tcp with
      | false =>
        have hsend : (w.server.within e).sendTXT (bytesOf c.text) = (false, w.server.within e) := by
          unfold WSclient.sendTXT clientIsConnected
          rw [show (w.server.within e).tcp = false from htcp]
          rfl
        rw [hsend]
        exact ⟨htcp, rfl⟩
      | true =>
        have hconn : (w.server.within e).net.connected = false := Bool.eq_false_iff.2 fun hc => ha ⟨htcp, hc⟩
        have hsend : (w.server.within e).sendTXT (bytesOf c.text) = (false, (w.server.within e).disconnect) := by
          rw [WSclient.sendTXT, clientIsConnected_lost (s := w.server.within e) htcp
            (by simp [WSclient.within, h htcp]) hconn]
          rfl
        rw [hsend]
        exact ⟨(closed_disconnect (s := w.server.within e) htcp).tcp, disconnect_tx _⟩
    refine ⟨fun ht => absurd ht (by simp [hs.1]), .inl ⟨ha, fun ha' => absurd ha'.tcp (by simp [hs.1]), ?_⟩⟩
    show s.net.tx.drop w.server.net.tx.length = []
    rw [hs.2, List.drop_length]

/-- What Center's end of a new connection has written. -/
theorem accepted_cases (h : Accepts e) :
    (accepted e).2.status = .connected ∧ ((∃ f : Frame, f.message = ping ∧ (accepted e).2.net.tx = f.write) ∨
      ¬ Alive (accepted e).2 ∧ Frame.read (accepted e).2.net.tx = none) := by
  have hcl := (sent_sendFrame ((opened false).within e) .ping [] true).client
  have hst : (accepted e).2.status = .connected := by
    rw [accepted, hcl]
    rfl
  refine ⟨hst, ?_⟩
  rcases sending_cases (l := ⟨opened false, opened false, []⟩) (m := ping) (e := e) rfl h.1 h.2 with
    ⟨-, -, key, hkey, hr⟩ | ⟨-, hlost, hread, -⟩
  · exact .inl ⟨⟨true, .ping, key, [], hkey, by decide⟩, rfl, hr⟩
  · refine .inr ⟨fun ha => ?_, hread⟩
    exact absurd (ha.connected.symm.trans hlost) (by simp)

/-- An event at Center, over either connection. -/
theorem matches_hear (h : Matches w n) (join : Bool) (v : Center.Event)
    (hw : ∀ c r, v = .broadcast c r → w.Completes c e)
    (ha : v = .frame "/" → join = true → w.client.tcp = false → Accepts e) :
    Matches (w.hear join e v) (n.hear (join && !w.client.tcp) v) := by
  cases v with
  | boot =>
    refine ⟨h.center, h.relay, fun ht => absurd ht (by simp [Wire.hear]), ?_⟩
    rcases h.client with ⟨htcp, -⟩ | ⟨cs, lead, left, tail, hc⟩
    · exact .inl ⟨htcp, rfl⟩
    · exact .inr ⟨[], [], [], [], ⟨hc.ready.status, hc.ready.tcp, hc.ready.size, hc.ready.buffer⟩, rfl, .inl rfl,
        rfl, rfl, List.nil_prefix, fun hne => absurd rfl hne, fun ha => absurd ha.tcp (by simp [Wire.hear])⟩
  | frame payload =>
    have hdown : w.client.tcp = false → n.link = .down := by
      intro ht
      rcases h.client with ⟨-, hl⟩ | ⟨cs, lead, left, tail, hc⟩
      · exact hl
      · exact absurd (ht.symm.trans hc.ready.tcp) (by simp)
    by_cases hj : payload = "/" ∧ join = true ∧ w.client.tcp = false
    · obtain ⟨rfl, rfl, htcp⟩ := hj
      obtain ⟨hst, hcases⟩ := accepted_cases (ha rfl rfl htcp)
      simp only [Wire.hear, RelayLink.Net.hear, htcp, hdown htcp, Bool.not_false, Bool.and_true, and_self, if_true]
      refine ⟨h.center, h.relay, fun _ => hst, .inr ?_⟩
      have hready : Ready ((joining w.client.events).arrive (accepted e).2.net.tx) := ⟨.inl rfl, rfl, rfl, rfl⟩
      rcases hcases with ⟨f, hf, hb⟩ | ⟨hno, hread⟩
      · refine ⟨[], [f], [], [], hready, ?_, .inr ⟨f, rfl, hf⟩, rfl, rfl, List.nil_prefix, fun hne => absurd rfl hne,
          fun _ => ⟨rfl, rfl, rfl⟩⟩
        show [] ++ (accepted e).2.net.tx = _
        simp [hb, framing]
      · exact ⟨[], [], [], _, hready, rfl, .inl rfl, rfl, hread, List.nil_prefix, fun hne => absurd rfl hne,
          fun ha => absurd ha hno⟩
    · have hj' : ¬ (payload = "/" ∧ (join && !w.client.tcp) = true ∧ n.link = .down) := by
        rintro ⟨hp, hjc, -⟩
        rw [Bool.and_eq_true_iff, Bool.not_eq_true'] at hjc
        exact hj ⟨hp, hjc⟩
      simp only [Wire.hear, RelayLink.Net.hear, if_neg hj, if_neg hj']
      exact h
  | broadcast c r =>
    obtain ⟨hstatus, hcases⟩ := broadcast_cases h.server c e (hw c r rfl)
    have hdown : n.link = .down → n.hear (join && !w.client.tcp) (.broadcast c r) = n := by
      intro hl
      simp only [RelayLink.Net.hear, hl, reduceCtorEq, if_false]
    rcases h.client with ⟨htcp, hl⟩ | ⟨cs, lead, left, tail, hc⟩
    · rw [hdown hl]
      exact ⟨h.center, h.relay, hstatus, .inl ⟨htcp, hl⟩⟩
    have hready : Ready (w.hear join e (.broadcast c r)).client :=
      ⟨hc.ready.status, hc.ready.tcp, hc.ready.size, hc.ready.buffer⟩
    cases hl : n.link with
    | down =>
      rw [hdown hl]
      rcases hcases with ⟨hno, hno', hb⟩ | ⟨ha, -⟩
      · refine ⟨h.center, h.relay, hstatus, .inr ⟨cs, lead, left, tail, hready, ?_, hc.first, hc.commands, hc.unread,
          hc.queue, hc.up, fun ha => absurd ha hno'⟩⟩
        show w.client.net.rx ++ _ = _
        rw [hb, List.append_nil]
        exact hc.stream
      · exact absurd (hl.symm.trans (hc.alive ha).1) (by simp)
    | up =>
      have hn : n.hear (join && !w.client.tcp) (.broadcast c r) = { n with queue := n.queue ++ [c.text] } := by
        simp only [RelayLink.Net.hear, hl, if_true]
      rw [hn]
      refine ⟨h.center, h.relay, hstatus, .inr ?_⟩
      rcases hcases with ⟨hno, hno', hb⟩ | ⟨ha, ⟨f, hf, hb⟩ | ⟨hno', hread⟩⟩
      · refine ⟨cs, lead, left, tail, hready, ?_, hc.first, hc.commands, hc.unread,
          hc.queue.trans (List.prefix_append _ _), fun _ => hl, fun ha => absurd ha hno'⟩
        show w.client.net.rx ++ _ = _
        rw [hb, List.append_nil]
        exact hc.stream
      · obtain ⟨-, hq, rfl⟩ := hc.alive ha
        refine ⟨cs ++ [c], lead, left ++ [f], [], hready, ?_, hc.first, ?_, rfl, ?_, fun _ => hl, fun _ => ⟨hl, ?_, rfl⟩⟩
        · show w.client.net.rx ++ _ = _
          rw [hb, hc.stream]
          simp [framing]
        · rw [List.map_append, List.map_append, hc.commands, List.map_singleton, List.map_singleton, hf]
        · rw [hq, List.map_append]
          exact List.prefix_rfl
        · rw [List.map_append, hq]
          rfl
      · obtain ⟨-, hq, rfl⟩ := hc.alive ha
        refine ⟨cs, lead, left, _, hready, ?_, hc.first, hc.commands, hread, hc.queue.trans (List.prefix_append _ _),
          fun _ => hl, fun ha => absurd ha hno'⟩
        show w.client.net.rx ++ _ = _
        rw [hc.stream, List.append_nil]
  | _ => exact h

theorem matches_center (P : Platform) (h : Matches w n) (x : Choice Env Outside) (join : Bool) (e : Surroundings)
    (hg : Grew w.center.state ((device P).step x w.center).state)
    (hw : ∀ c r, ((device P).step x w.center).state.log = .broadcast c r :: w.center.state.log → w.Completes c e)
    (ha : ((device P).step x w.center).state.log = .frame "/" :: w.center.state.log → join = true →
      w.client.tcp = false → Accepts e) :
    Matches (w.stepCenter P x join e) (n.stepCenter P x (join && !w.client.tcp)) := by
  have hm : Matches { w with center := (device P).step x w.center } { n with center := (device P).step x n.center } :=
    ⟨by rw [h.center], h.relay, h.server, h.client.imp id fun ⟨cs, lead, left, tail, hc⟩ =>
      ⟨cs, lead, left, tail, hc.ready, hc.stream, hc.first, hc.commands, hc.unread, hc.queue, hc.up, hc.alive⟩⟩
  simp only [Wire.stepCenter, RelayLink.Net.stepCenter]
  rw [h.center] at hm ⊢
  rcases hg with hg | ⟨v, hg⟩
  · rw [hg, if_neg (lt_irrefl _), if_neg (lt_irrefl _)]
    exact hm
  · rw [hg, if_pos (by simp), if_pos (by simp)]
    exact matches_hear hm join v (fun c r hv => hw c r (hv ▸ hg)) fun hv => ha (hv ▸ hg)

theorem Follows.next {P : Platform} {v : Wire} (h : Follows P v n) {u : Wire}
    (hn : ∀ n', Matches v n' → Follows P u n') : Follows P u n := by
  obtain ⟨ns, hns, hm⟩ := h
  exact (hn _ hm).trans ns hns

theorem follows_send (P : Platform) {r : Relay.State × Option String} (h : Matches { w with relay := r.1 } n) :
    Follows P (w.send r) n := by
  obtain ⟨relay, text⟩ := r
  cases text with
  | none => exact ⟨[], rfl, h⟩
  | some t => exact follows_sendTXT P h (bytesOf t)

theorem matches_gate (P : Platform) (h : Matches w n) (ms : Nat) :
    Matches { w with relay := (Relay.loop { w.relay with clock := w.relay.clock + ms }).1 }
      (n.step P (.relayLoop ms)) := by
  rw [RelayLink.step_relayLoop, h.relay]
  generalize (Relay.loop { w.relay with clock := w.relay.clock + ms }).1 = relay
  exact ⟨h.center, rfl, h.server, h.client.imp id fun ⟨cs, lead, left, tail, hc⟩ =>
    ⟨cs, lead, left, tail, hc.ready, hc.stream, hc.first, hc.commands, hc.unread, hc.queue, hc.up, hc.alive⟩⟩

theorem follows_relayLoop (P : Platform) (h : Matches w n) (ms : Nat) (arrived : Bool) (e : Surroundings) :
    Follows P (w.relayLoop ms arrived e) n :=
  (follows_loop P h arrived e).next fun _ h' =>
    Follows.trans [.relayLoop ms] rfl (follows_send P (matches_gate P h' ms))

/-- Every step over the bytes is some steps over the texts. -/
theorem matches_step (P : Platform) (h : Matches w n) (m : Move)
    (hg : ∀ x join e, m = .center x join e → Grew w.center.state ((device P).step x w.center).state)
    (hw : ∀ x join e, m = .center x join e → ∀ c r,
      ((device P).step x w.center).state.log = .broadcast c r :: w.center.state.log → w.Completes c e)
    (ha : ∀ x join e, m = .center x join e → ((device P).step x w.center).state.log = .frame "/" :: w.center.state.log →
      join = true → w.client.tcp = false → Accepts e) :
    ∃ ns, RelayLink.choices ns = choices [m] ∧ Matches (w.step P m) (ns.foldl (fun n m => n.step P m) n) := by
  cases m with
  | center x join e =>
    exact ⟨[.center x (join && !w.client.tcp)], rfl, matches_center P h x join e (hg x join e rfl) (hw x join e rfl)
      (ha x join e rfl)⟩
  | opened =>
    simp only [Wire.step]
    split
    · rename_i hst
      rcases h.client with ⟨htcp, -⟩ | ⟨cs, lead, left, tail, hc⟩
      · exact absurd (htcp.symm.trans hst.1) (by simp)
      · refine ⟨[.notice false], rfl, ?_⟩
        have hev : (w.client.headerDone.runCbEvent .connected (some (bytesOf "/"))).events =
            w.client.events ++ [⟨.connected, some (bytesOf "/")⟩] := rfl
        rw [tell_one hev, show textOf (Event.text ⟨.connected, some (bytesOf "/")⟩) = "/" from text_slash]
        have hstep : n.step P (.notice false) = { n with relay := Relay.webSocketEvent "/" n.relay } := by
          simp only [RelayLink.Net.step, Bool.false_eq_true, if_false]
        simp only [List.foldl_cons, List.foldl_nil, hstep]
        refine ⟨h.center, congrArg (Relay.webSocketEvent "/") h.relay, h.server, .inr ⟨cs, lead, left, tail,
          ⟨.inr rfl, hst.1, rfl, hc.ready.buffer⟩, hc.stream, hc.first, hc.commands, hc.unread, hc.queue, hc.up,
          hc.alive⟩⟩
    · exact ⟨[], rfl, h⟩
  | relayLoop ms arrived e => exact follows_relayLoop P h ms arrived e
  | lost server client =>
    refine ⟨[], rfl, h.center, h.relay, h.server, ?_⟩
    rcases h.client with hd | ⟨cs, lead, left, tail, hc⟩
    · exact .inl hd
    · exact .inr ⟨cs, lead, left, tail, ⟨hc.ready.status, hc.ready.tcp, hc.ready.size, hc.ready.buffer⟩, hc.stream,
        hc.first, hc.commands, hc.unread, hc.queue, hc.up,
        fun ha => hc.alive ⟨ha.tcp, (Bool.and_eq_true_iff.1 ha.connected).1⟩⟩
  | relayReset clock => exact ⟨[.relayReset clock], rfl, h.center, rfl, h.server, .inl ⟨rfl, rfl⟩⟩

theorem hear_center (join : Bool) (e : Surroundings) (w : Wire) (v : Center.Event) :
    (w.hear join e v).center = w.center := by
  cases v with
  | frame payload =>
    simp only [Wire.hear]
    split <;> rfl
  | _ => rfl

theorem send_center (w : Wire) (r : Relay.State × Option String) : (w.send r).center = w.center := by
  obtain ⟨relay, text⟩ := r
  cases text <;> rfl

theorem step_center (P : Platform) (m : Move) (w : Wire) :
    (w.step P m).center = (device P).exec (choices [m]) w.center := by
  cases m with
  | center x join e =>
    simp only [Wire.step, Wire.stepCenter]
    split
    · split
      · exact hear_center join e _ _
      · rfl
    · rfl
  | opened =>
    simp only [Wire.step]
    split <;> rfl
  | relayLoop ms arrived e => exact send_center _ _
  | _ => rfl

theorem steady_center {P : Platform} {x : Choice Env Outside} {join : Bool} {e : Surroundings}
    (h : Steady (.center x join e) w (w.step P (.center x join e))) (c : Command) (r : Option Request)
    (hl : ((device P).step x w.center).state.log = .broadcast c r :: w.center.state.log) : w.Completes c e := by
  have hc : (w.step P (.center x join e)).center.state.log = .broadcast c r :: w.center.state.log := by
    rw [step_center]
    exact hl
  rw [Steady, hc] at h
  exact h rfl

theorem steady_join {P : Platform} {x : Choice Env Outside} {join : Bool} {e : Surroundings}
    (h : Steady (.center x join e) w (w.step P (.center x join e)))
    (hl : ((device P).step x w.center).state.log = .frame "/" :: w.center.state.log) (hj : join = true)
    (htcp : w.client.tcp = false) : Accepts e := by
  have hc : (w.step P (.center x join e)).center.state.log = .frame "/" :: w.center.state.log := by
    rw [step_center]
    exact hl
  rw [Steady, hc] at h
  exact h rfl rfl hj htcp

/-- A run over the bytes. -/
theorem matches_run (P : Platform) (ms : List Move) (h : Matches w n) (hs : Along (Wire.step P) Steady ms w)
    (hg : (device P).Along (fun _ c d => Grew c.state d.state) (choices ms) w.center) :
    ∃ ns, RelayLink.choices ns = choices ms ∧
      Matches (steps (Wire.step P) ms w) (ns.foldl (fun n m => n.step P m) n) := by
  induction ms generalizing w n with
  | nil => exact ⟨[], rfl, h⟩
  | cons m ms ih =>
    have hm : choices (m :: ms) = choices [m] ++ choices ms := by cases m <;> rfl
    rw [hm, Machine.along_append] at hg
    obtain ⟨ns, hns, hstep⟩ := matches_step P h m (fun x join e hx => by subst hx; exact hg.1.1)
      (fun x join e hx => by subst hx; exact steady_center hs.1) fun x join e hx => by subst hx; exact steady_join hs.1
    obtain ⟨ns', hns', hrun⟩ := ih hstep hs.2 (by rw [step_center]; exact hg.2)
    refine ⟨ns ++ ns', ?_, by rwa [List.foldl_append]⟩
    rw [RelayLink.choices_append, hns, hns', hm]

end

theorem matches_start (P : Platform) (flash : Nat → UInt8) : Matches (.start P flash) (.start P flash) :=
  ⟨rfl, rfl, fun h => absurd h (by simp [Wire.start]), .inl ⟨rfl, rfl⟩⟩

theorem matches_after (P : Platform) (flash : Nat → UInt8) (ms : List Move)
    (h : Along (Wire.step P) Steady ms (.start P flash)) :
    ∃ ns, RelayLink.choices ns = choices ms ∧ Matches (Wire.after P flash ms) (RelayLink.Net.after P flash ns) :=
  matches_run P ms (matches_start P flash) h (along_grew P flash (choices ms))

/-- What the two devices do over the bytes they can also do over the commands: with the same choices for Center,
both end in the same states. Where both ends of the connection are still up, the bytes that the relay has not read
are whole frames, and behind the ping of the handshake, if that is among them, their texts are the commands on
their way. -/
theorem refines (P : Platform) (flash : Nat → UInt8) (ms : List Move)
    (h : Along (Wire.step P) Steady ms (.start P flash)) :
    ∃ ns, RelayLink.choices ns = choices ms ∧
      (RelayLink.Net.after P flash ns).center = (Wire.after P flash ms).center ∧
      (RelayLink.Net.after P flash ns).relay = (Wire.after P flash ms).relay ∧
      ((Wire.after P flash ms).client.tcp = true → (Wire.after P flash ms).server.tcp = true →
        (Wire.after P flash ms).server.net.connected = true →
        (RelayLink.Net.after P flash ns).link = .up ∧
        ∃ lead left, (Wire.after P flash ms).client.net.rx = framing.stream (lead ++ left) ∧
          (lead = [] ∨ ∃ f : Frame, lead = [f] ∧ f.message = ping) ∧
          left.map (fun f => textOf f.message.event.text) = (RelayLink.Net.after P flash ns).queue) := by
  obtain ⟨ns, hns, hm⟩ := matches_after P flash ms h
  refine ⟨ns, hns, hm.center, hm.relay, fun hc hs hconn => ?_⟩
  rcases hm.client with ⟨htcp, -⟩ | ⟨cs, lead, left, tail, hcarry⟩
  · exact absurd (htcp.symm.trans hc) (by simp)
  obtain ⟨hl, hq, rfl⟩ := hcarry.alive ⟨hs, hconn⟩
  refine ⟨hl, lead, left, hcarry.stream.trans (List.append_nil _), hcarry.first, ?_⟩
  have htexts : left.map (fun f => textOf f.message.event.text) =
      (left.map Frame.message).map fun m => textOf m.event.text := by rw [List.map_map]; rfl
  rw [htexts, hcarry.commands, List.map_map]
  refine Eq.trans ?_ hq.symm
  exact List.map_congr_left fun c _ => text_message c

/-- The bytes go through at once. -/
def flowing : Surroundings := { looks := List.replicate 20 (.moves 20) }

def centerMoves (join : Bool) (xs : Run) : List Move := xs.map fun x => .center x join flowing

/-- The relay connects and the app unlocks; the ping and the commands reach the relay in pieces. -/
def unlockedRelay : List Move :=
  centerMoves false (idle 170) ++ centerMoves true ([.run { frame := some "/" }] ++ idle 30) ++
    [.opened, .relayLoop 0 true flowing, .relayLoop 0 true flowing] ++
    centerMoves false (idle 45 ++ tap 0 ++ idle 40 ++ pause 1000 ++ idle 50) ++
    [.relayLoop 0 true { looks := [.moves 1, .moves 0, .moves 20, .moves 3, .moves 20] }]

set_option maxRecDepth 10000 in
theorem refines_unlocked :
    (Wire.after bench (flashOf 5) unlockedRelay).relay.relayPin = true ∧
    ∃ ns, RelayLink.choices ns = choices unlockedRelay ∧
      (RelayLink.Net.after bench (flashOf 5) ns).center = (Wire.after bench (flashOf 5) unlockedRelay).center ∧
      (RelayLink.Net.after bench (flashOf 5) ns).relay = (Wire.after bench (flashOf 5) unlockedRelay).relay := by
  obtain ⟨ns, hns, hc, hr, -⟩ := refines bench (flashOf 5) unlockedRelay (by decide +kernel)
  exact ⟨by decide +kernel, ns, hns, hc, hr⟩

/-- Over the bytes too, a relay that is open has been told so by Center, and Center had its grounds. -/
theorem open_over_bytes (P : Platform) (flash : Nat → UInt8) (ms : List Move)
    (h : Along (Wire.step P) Steady ms (.start P flash)) (hp : (Wire.after P flash ms).relay.relayPin = true) :
    ∃ c r earlier, .broadcast c r :: earlier <:+ (Wire.after P flash ms).center.state.log ∧ Grounds c r earlier := by
  obtain ⟨ns, -, hm⟩ := matches_after P flash ms h
  rw [← hm.relay] at hp
  obtain ⟨before, x, join, mid, later, c, r, rest, rfl, hc, hlast⟩ := RelayLink.lastFrame_after ns hp
  have hl : (RelayLink.Net.after P flash (before ++ [.center x join])).center.state.log <:+
      (RelayLink.Net.after P flash (before ++ [.center x join] ++ (mid ++ .deliver :: later))).center.state.log :=
    RelayLink.log_suffix _ _
  rw [hlast.broadcast, ← List.append_assoc, List.append_assoc before, List.singleton_append] at hl
  rw [← hm.center]
  exact ⟨c, r, _, hl, RelayLink.grounds_of_sent hlast.broadcast hc⟩

set_option maxRecDepth 10000 in
theorem open_over_bytes_unlocked :
    (Wire.after bench (flashOf 5) unlockedRelay).relay.relayPin = true ∧ ∃ c r earlier,
      .broadcast c r :: earlier <:+ (Wire.after bench (flashOf 5) unlockedRelay).center.state.log ∧ Grounds c r earlier :=
  have h : (Wire.after bench (flashOf 5) unlockedRelay).relay.relayPin = true := by decide +kernel
  ⟨h, open_over_bytes bench (flashOf 5) unlockedRelay (by decide +kernel) h⟩

end RelayWire
