import TruckLock.WebSocketsEnds

/-!
# In order

One direction of a connection between two ends of the library, over whole runs:
whatever the network, the memory and the timing do, what the sketch at the other
end is told is a beginning of what has been sent.
-/
namespace WebSockets

/-- What a sketch sends; the length fits its type. -/
@[ext]
structure Message where
  opCode : WSopcode
  fin : Bool
  payload : Bytes
  sized : payload.length < 2 ^ 32

def Message.event (m : Message) : Event := .of m.opCode m.fin m.payload

/-- What one call of the library meets: see `Net`. -/
structure Surroundings where
  looks : List Look := []
  heap : List Bool := []
  random : Bytes := []

def WSclient.within (s : WSclient) (e : Surroundings) : WSclient :=
  { s with net := { s.net with looks := e.looks, heap := e.heap, random := e.random } }

def WSclient.arrive (s : WSclient) (b : Bytes) : WSclient := { s with net := { s.net with rx := s.net.rx ++ b } }

/-- `connected()` no longer holds. -/
def WSclient.lose (s : WSclient) (lost : Bool) : WSclient :=
  { s with net := { s.net with connected := s.net.connected && !lost } }

/-- The two ends, and the messages for which `sendFrame` has returned `true`. -/
structure Link where
  sender : WSclient
  receiver : WSclient
  sent : List Message := []

inductive Step where
  | send (m : Message) (e : Surroundings)
  | loop (arrived : Bool) (e : Surroundings)
  | lost (sender receiver : Bool)

/-- The call of `sendFrame` in a step. -/
def Link.sending (l : Link) (m : Message) (e : Surroundings) : Bool × WSclient :=
  (l.sender.within e).sendFrame m.opCode m.payload m.fin

/-- The bytes that it writes. -/
def Link.written (l : Link) (m : Message) (e : Surroundings) : Bytes :=
  (l.sending m e).2.net.tx.drop l.sender.net.tx.length

def Link.step (l : Link) : Step → Link
  | .send m e =>
    { sender := (l.sending m e).2
      receiver := l.receiver.arrive (l.written m e)
      sent := if (l.sending m e).1 then l.sent ++ [m] else l.sent }
  | .loop arrived e => { l with receiver := (l.receiver.within e).loop arrived }
  | .lost sender receiver => { l with sender := l.sender.lose sender, receiver := l.receiver.lose receiver }

/-- An end after its handshake. -/
def opened (cIsClient : Bool) : WSclient :=
  WSclient.headerDone { cIsClient := cIsClient, tcp := true, net := { connected := true } }

/-- Frames of a client are masked, those of a server are not. -/
def Link.start (fromClient : Bool) : Link := { sender := opened fromClient, receiver := opened !fromClient }

def Link.after (l : Link) (steps : List Step) : Link := steps.foldl Link.step l

/-- No call of `sendFrame` waits in vain for five seconds: it writes the whole frame, or the connection is lost. -/
def Link.Steady (l : Link) : List Step → Prop
  | [] => True
  | x :: steps => (match x with
    | .send m e => .late ∉ e.looks ∧ ((l.sending m e).1 = true ∨ (l.sending m e).2.net.connected = false)
    | _ => True) ∧ (l.step x).Steady steps

namespace WSclient

variable {s t : WSclient}

/-- Between two frames. -/
structure Open (s : WSclient) : Prop where
  status : s.status = .connected
  tcp : s.tcp = true
  size : s.cWsRXsize = 0
  buffer : s.cWsHeader.length = maxHeaderSize

structure Shut (s : WSclient) : Prop where
  status : s.status = .notConnected
  tcp : s.tcp = false

theorem open_opened (cIsClient : Bool) : Open (opened cIsClient) := ⟨rfl, rfl, rfl, rfl⟩

theorem loop_shut (h : s.tcp = false) (arrived : Bool) : s.loop arrived = s := by
  unfold loop clientIsConnected
  rw [h]
  rfl

theorem clientIsConnected_lost (h : s.tcp = true) (hst : s.status ≠ .notConnected) (hc : s.net.connected = false) :
    s.clientIsConnected = (false, s.disconnect) := by
  unfold clientIsConnected
  simp only [h, hc, hst, Bool.not_true, Bool.false_eq_true, if_false, ne_eq, not_false_eq_true, if_true,
    (closed_disconnect h).tcp]

theorem clientIsConnected_held (h : s.tcp = true) (hst : s.status ≠ .notConnected) (hc : s.net.connected = true) :
    s.clientIsConnected = (true, s) := by
  unfold clientIsConnected
  simp only [h, hc, hst, Bool.not_true, Bool.false_eq_true, if_false, ne_eq, not_false_eq_true, if_true]

theorem loop_lost (h : s.tcp = true) (hst : s.status ≠ .notConnected) (hc : s.net.connected = false) (arrived : Bool) :
    Closed s (s.loop arrived) := by
  rw [loop, clientIsConnected_lost h hst hc]
  exact closed_disconnect h

theorem loop_connected (h : Open s) (hc : s.net.connected = true) (arrived : Bool) :
    s.loop arrived = if arrived && !s.net.rx.isEmpty then s.handleWebsocket else s := by
  rw [loop, clientIsConnected_held h.tcp (by simp [h.status]) hc]
  simp only [handleClientData, h.status, if_true]

theorem loop_header (h : s.tcp = true) (hst : s.status = .header) (hc : s.net.connected = true) (arrived : Bool) :
    s.loop arrived = s := by
  rw [loop, clientIsConnected_held h (by simp [hst]) hc]
  simp only [handleClientData, hst, ite_self]

theorem Open.reading (h : Open s) (hc : s.net.connected = true) : Reading s.net.rx s :=
  ⟨h.status, h.tcp, hc, h.buffer, by rw [h.size]; exact Nat.zero_le _, by rw [h.size]; rfl, by rw [h.size]; rfl⟩

theorem sendFrame_lost (htcp : s.tcp = true) (hc : s.net.connected = false) (op : WSopcode) (payload : Bytes)
    (fin : Bool) : s.sendFrame op payload fin = (false, s) := by
  unfold sendFrame
  rw [if_pos (by simp [htcp, hc])]

end WSclient

def Frame.message (f : Frame) : Message := ⟨f.opCode, f.fin, f.payload, f.small.trans_lt (by decide)⟩

open WSclient

variable {l : Link} {m : Message} {e : Surroundings}

/-- What stands on the stream behind the whole frames: nothing, the part of a frame whose sender has lost the
connection, or a frame that is too long, which the reader never gets past. -/
def Behind (l : Link) (rest : List Message) (tail : Bytes) : Prop :=
  rest = [] ∧ (tail = [] ∨ Frame.read tail = none ∧ l.sender.net.connected = false) ∨
    (∃ m ∈ rest, maxDataSize < m.payload.length) ∧ ∀ v, Frame.read (tail ++ v) = none

/-- The messages of an open connection: handed over, on the stream, and lost behind them. -/
structure Flowing (l : Link) (got : List Message) (left : List Frame) (rest : List Message) (tail : Bytes) : Prop where
  sent : l.sent = got ++ left.map Frame.message ++ rest
  receiver : Open l.receiver
  events : l.receiver.events = got.map Message.event
  stream : l.receiver.net.rx = framing.stream left ++ tail
  behind : Behind l rest tail

structure Stopped (l : Link) (got rest : List Message) : Prop where
  sent : l.sent = got ++ rest
  receiver : Shut l.receiver
  events : l.receiver.events = got.map Message.event ++ [⟨.disconnected, none⟩]

structure Carried (l : Link) : Prop where
  status : l.sender.status = .connected
  tcp : l.sender.tcp = true
  receiver : (∃ got left rest tail, Flowing l got left rest tail) ∨ ∃ got rest, Stopped l got rest

theorem read_behind {rest : List Message} {tail : Bytes} (h : Behind l rest tail) : Frame.read tail = none := by
  rcases h with ⟨-, rfl | ⟨h, -⟩⟩ | ⟨-, h⟩
  · rfl
  · exact h
  · simpa using h []

/-- A part of any frame is not read. -/
theorem read_incomplete {p q : Bytes} {key : Option Bytes} (hkey : ∀ k ∈ key, k.length = 4)
    (h : p ++ q = framed m.opCode m.payload m.fin key) (hq : q ≠ []) : Frame.read p = none := by
  by_cases hsmall : m.payload.length ≤ maxDataSize
  · exact framing.read_part (m := ⟨m.fin, m.opCode, key, m.payload, hkey, hsmall⟩) h hq
  · cases hp : Frame.read p with
    | none => rfl
    | some r =>
      have hr := Frame.read_append q hp
      rw [h, framed, read_oversize m.sized (by omega)] at hr
      exact absurd hr (by simp)

theorem carried_start (fromClient : Bool) : Carried (.start fromClient) :=
  ⟨rfl, rfl, .inl ⟨[], [], [], [], rfl, open_opened _, rfl, rfl, .inl ⟨rfl, .inl rfl⟩⟩⟩

theorem Stopped.more {got rest : List Message} (h : Stopped l got rest) {l' : Link} {new : List Message}
    (hs : l'.sent = l.sent ++ new) (hst : l'.receiver.status = l.receiver.status)
    (ht : l'.receiver.tcp = l.receiver.tcp) (he : l'.receiver.events = l.receiver.events) :
    Stopped l' got (rest ++ new) :=
  ⟨by rw [hs, h.sent, List.append_assoc], ⟨hst.trans h.receiver.status, ht.trans h.receiver.tcp⟩, he.trans h.events⟩

theorem Flowing.stop {got : List Message} {left : List Frame} {rest : List Message} {tail : Bytes}
    (h : Flowing l got left rest tail) (l' : Link) (hs : l'.sent = l.sent) {s : WSclient} (hc : Closed s l'.receiver)
    (he : s.events = l.receiver.events) : Stopped l' got (left.map Frame.message ++ rest) :=
  ⟨by rw [hs, h.sent, List.append_assoc], ⟨hc.status, hc.tcp⟩, by rw [hc.events, he, h.events]⟩

theorem carried_loop (h : Carried l) (arrived : Bool) (e : Surroundings) : Carried (l.step (.loop arrived e)) := by
  obtain ⟨hst, htcp, ⟨got, left, rest, tail, hf⟩ | ⟨got, rest, hs⟩⟩ := h
  · have hopen : Open (l.receiver.within e) :=
      ⟨hf.receiver.status, hf.receiver.tcp, hf.receiver.size, hf.receiver.buffer⟩
    by_cases hconn : (l.receiver.within e).net.connected = true
    · by_cases hrx : (arrived && !(l.receiver.within e).net.rx.isEmpty) = true
      · have hloop : (l.receiver.within e).loop arrived = (l.receiver.within e).handleWebsocket := by
          rw [loop_connected hopen hconn, if_pos hrx]
        have ho := outcome_handleWebsocket (hopen.reading hconn) hopen.size
        rw [← hloop] at ho
        rcases ho with ⟨f, r, hread, -, hr⟩ | ⟨hcl, -⟩
        · have hstream : (l.receiver.within e).net.rx = framing.stream left ++ tail := hf.stream
          rw [hstream] at hread
          cases left with
          | nil =>
            rw [Framing.stream_nil, List.nil_append, read_behind hf.behind] at hread
            exact absurd hread (by simp)
          | cons g left =>
            have hg := framing.read_write g (framing.stream left ++ tail)
            rw [Framing.stream_cons, List.append_assoc] at hread
            obtain ⟨rfl, rfl⟩ := Prod.mk.inj (Option.some.inj (hread.symm.trans hg))
            refine ⟨hst, htcp, .inl ⟨got ++ [f.message], left, rest, tail, ?_, ⟨hr.status, hr.tcp, hr.size, hr.buffer⟩,
              ?_, hr.rx, hf.behind⟩⟩
            · show l.sent = _
              rw [hf.sent]
              simp
            · show ((l.receiver.within e).loop arrived).events = _
              rw [hr.events, List.map_append]
              exact congrArg (· ++ _) hf.events
        · exact ⟨hst, htcp, .inr ⟨got, _, hf.stop (l.step (.loop arrived e)) rfl hcl rfl⟩⟩
      · have hloop : (l.receiver.within e).loop arrived = l.receiver.within e := by
          rw [loop_connected hopen hconn, if_neg hrx]
        refine ⟨hst, htcp, .inl ⟨got, left, rest, tail, hf.sent, ?_, ?_, ?_, hf.behind⟩⟩
        · show Open ((l.receiver.within e).loop arrived)
          rw [hloop]
          exact hopen
        · show ((l.receiver.within e).loop arrived).events = _
          rw [hloop]
          exact hf.events
        · show ((l.receiver.within e).loop arrived).net.rx = _
          rw [hloop]
          exact hf.stream
    · have hcl := loop_lost hopen.tcp (by simp [hopen.status]) (Bool.eq_false_iff.2 hconn) arrived
      exact ⟨hst, htcp, .inr ⟨got, _, hf.stop (l.step (.loop arrived e)) rfl hcl rfl⟩⟩
  · have hloop := loop_shut (s := l.receiver.within e) hs.receiver.tcp arrived
    refine ⟨hst, htcp, .inr ⟨got, rest, hs.sent, ?_, ?_⟩⟩
    · show Shut ((l.receiver.within e).loop arrived)
      rw [hloop]
      exact ⟨hs.receiver.status, hs.receiver.tcp⟩
    · show ((l.receiver.within e).loop arrived).events = _
      rw [hloop]
      exact hs.events

/-- What a call of `sendFrame` puts on the stream. -/
theorem sending_cases (htcp : l.sender.tcp = true) (hl : .late ∉ e.looks)
    (hw : (l.sending m e).1 = true ∨ (l.sending m e).2.net.connected = false) :
    ((l.sending m e).1 = true ∧ l.sender.net.connected = true ∧ ∃ key : Option Bytes, (∀ k ∈ key, k.length = 4) ∧
        l.written m e = framed m.opCode m.payload m.fin key) ∨
      (l.sending m e).1 = false ∧ (l.sending m e).2.net.connected = false ∧ Frame.read (l.written m e) = none ∧
        (l.sender.net.connected = false → l.written m e = []) := by
  obtain ⟨hclient, hrx, hok, hpart⟩ := sent_sendFrame (l.sender.within e) m.opCode m.payload m.fin
  have hlost : l.sender.net.connected = false → l.sending m e = (false, l.sender.within e) := fun hc =>
    sendFrame_lost (s := l.sender.within e) htcp hc m.opCode m.payload m.fin
  have hwritten : ∀ b, (l.sending m e).2.net.tx = l.sender.net.tx ++ b → l.written m e = b := by
    intro b hb
    rw [Link.written, hb, List.drop_left]
  cases hr : (l.sending m e).1 with
  | true =>
    obtain ⟨-, -, key, hkey, -, htx⟩ := hok hr
    refine .inl ⟨rfl, ?_, key, hkey, hwritten _ htx⟩
    by_contra hc
    rw [hlost (Bool.eq_false_iff.2 hc)] at hr
    exact absurd hr (by simp)
  | false =>
    have hconn : (l.sending m e).2.net.connected = false := hw.resolve_left (by simp [hr])
    refine .inr ⟨rfl, hconn, ?_⟩
    cases hc : l.sender.net.connected with
    | false =>
      have hnil : l.written m e = [] := by
        rw [Link.written, hlost hc]
        exact List.drop_length
      exact ⟨by rw [hnil]; exact read_nil, fun _ => hnil⟩
    | true =>
      obtain ⟨key, p, q, hkey, hpq, hq, htx⟩ := hpart hr htcp hl hconn
      rw [hwritten p htx]
      exact ⟨read_incomplete hkey hpq hq, fun h => absurd h (by simp)⟩

theorem carried_send (h : Carried l) (hl : .late ∉ e.looks)
    (hw : (l.sending m e).1 = true ∨ (l.sending m e).2.net.connected = false) : Carried (l.step (.send m e)) := by
  obtain ⟨hst, htcp, hrec⟩ := h
  obtain ⟨net, hnet⟩ : ∃ net, (l.sending m e).2 = { l.sender.within e with net := net } :=
    ⟨_, (sent_sendFrame (l.sender.within e) m.opCode m.payload m.fin).client⟩
  have hst' : (l.step (.send m e)).sender.status = .connected := by
    show (l.sending m e).2.status = _
    rw [hnet]
    exact hst
  have htcp' : (l.step (.send m e)).sender.tcp = true := by
    show (l.sending m e).2.tcp = _
    rw [hnet]
    exact htcp
  have hcases := sending_cases htcp hl hw
  obtain ⟨new, hnew⟩ : ∃ new, (l.step (.send m e)).sent = l.sent ++ new ∧
      ((l.sending m e).1 = true → new = [m]) ∧ ((l.sending m e).1 = false → new = []) := by
    show ∃ new, (if (l.sending m e).1 then l.sent ++ [m] else l.sent) = _ ∧ _
    cases (l.sending m e).1 with
    | true => exact ⟨[m], rfl, fun _ => rfl, fun h => absurd h (by simp)⟩
    | false => exact ⟨[], by simp, fun h => absurd h (by simp), fun _ => rfl⟩
  obtain ⟨hsent, hone, hnone⟩ := hnew
  refine ⟨hst', htcp', ?_⟩
  rcases hrec with ⟨got, left, rest, tail, hf⟩ | ⟨got, rest, hs⟩
  · left
    have hflow : ∀ b left' rest' tail', l.written m e = b →
        left.map Frame.message ++ rest ++ new = left'.map Frame.message ++ rest' →
        framing.stream left ++ tail ++ b = framing.stream left' ++ tail' →
        Behind (l.step (.send m e)) rest' tail' → Flowing (l.step (.send m e)) got left' rest' tail' := by
      intro b left' rest' tail' hr hm hb hbehind
      refine ⟨?_, ⟨hf.receiver.status, hf.receiver.tcp, hf.receiver.size, hf.receiver.buffer⟩, hf.events, ?_, hbehind⟩
      · rw [hsent, hf.sent, List.append_assoc, List.append_assoc, ← List.append_assoc (left.map _), hm,
          List.append_assoc]
      · show l.receiver.net.rx ++ l.written m e = _
        rw [hf.stream, hr, hb]
    rcases hcases with ⟨hok, hconn, key, hkey, hr⟩ | ⟨hno, hlost, hp, hnil⟩
    · obtain rfl := hone hok
      rcases hf.behind with ⟨rfl, rfl | ⟨-, hc⟩⟩ | ⟨⟨b, hb, hbig⟩, hdead⟩
      · by_cases hsmall : m.payload.length ≤ maxDataSize
        · refine ⟨got, left ++ [⟨m.fin, m.opCode, key, m.payload, hkey, hsmall⟩], [], [], hflow _ _ _ _ hr ?_ ?_
            (.inl ⟨rfl, .inl rfl⟩)⟩
          · simp [Frame.message]
          · simp [framing, Frame.write, Frame.header, framed]
        · refine ⟨got, left, [m], framed m.opCode m.payload m.fin key, hflow _ _ _ _ hr (by simp) (by simp)
            (.inr ⟨⟨m, by simp, by omega⟩, fun v => ?_⟩)⟩
          rw [framed, List.append_assoc]
          exact read_oversize m.sized (by omega) _
      · exact absurd (hconn.symm.trans hc) (by simp)
      · exact ⟨got, left, rest ++ [m], _, hflow _ _ _ _ hr (List.append_assoc _ _ _) (List.append_assoc _ _ _)
          (.inr ⟨⟨b, by simp [hb], hbig⟩, fun v => by rw [List.append_assoc]; exact hdead _⟩)⟩
    · obtain rfl := hnone hno
      rcases hf.behind with ⟨rfl, rfl | ⟨ht, hc⟩⟩ | ⟨hbig, hdead⟩
      · exact ⟨got, left, [], l.written m e, hflow _ _ _ _ rfl (by simp) (by simp) (.inl ⟨rfl, .inr ⟨hp, hlost⟩⟩)⟩
      · exact ⟨got, left, [], tail, hflow _ _ _ _ (hnil hc) (by simp) (by simp) (.inl ⟨rfl, .inr ⟨ht, hlost⟩⟩)⟩
      · exact ⟨got, left, rest, _, hflow _ _ _ _ rfl (by simp) (List.append_assoc _ _ _)
          (.inr ⟨hbig, fun v => by rw [List.append_assoc]; exact hdead _⟩)⟩
  · right
    exact ⟨got, rest ++ new, hs.more hsent rfl rfl rfl⟩

theorem carried_lost (h : Carried l) (s r : Bool) : Carried (l.step (.lost s r)) := by
  obtain ⟨hst, htcp, ⟨got, left, rest, tail, hf⟩ | ⟨got, rest, hs⟩⟩ := h
  · refine ⟨hst, htcp, .inl ⟨got, left, rest, tail, hf.sent, ⟨hf.receiver.status, hf.receiver.tcp, hf.receiver.size,
      hf.receiver.buffer⟩, hf.events, hf.stream, ?_⟩⟩
    refine hf.behind.imp (fun hb => ⟨hb.1, hb.2.imp id fun hp => ⟨hp.1, ?_⟩⟩) id
    show (l.sender.net.connected && !s) = false
    rw [hp.2, Bool.false_and]
  · exact ⟨hst, htcp, .inr ⟨got, rest, hs.sent, ⟨hs.receiver.status, hs.receiver.tcp⟩, hs.events⟩⟩

theorem carried_after (h : Carried l) (steps : List Step) (hs : l.Steady steps) : Carried (l.after steps) := by
  induction steps generalizing l with
  | nil => exact h
  | cons x steps ih =>
    obtain ⟨hx, hs⟩ := hs
    refine ih ?_ hs
    cases x with
    | send m e => exact carried_send h hx.1 hx.2
    | loop arrived e => exact carried_loop h arrived e
    | lost s r => exact carried_lost h s r

/-- Between two ends of the library, in both directions: what the sketch has been told at one end is what was sent at
the other, from the first message on, in order, each once; after a disconnection it is told nothing any more. -/
theorem received_in_order (fromClient : Bool) (steps : List Step) (h : (Link.start fromClient).Steady steps) :
    ∃ got left, ((Link.start fromClient).after steps).sent = got ++ left ∧
      (((Link.start fromClient).after steps).receiver.events = got.map Message.event ∨
        ((Link.start fromClient).after steps).receiver.events = got.map Message.event ++ [⟨.disconnected, none⟩]) := by
  rcases (carried_after (carried_start fromClient) steps h).receiver with ⟨got, left, rest, tail, hf⟩ | ⟨got, rest, hs⟩
  · exact ⟨got, left.map Frame.message ++ rest, by rw [hf.sent, List.append_assoc], .inl hf.events⟩
  · exact ⟨got, rest, hs.sent, .inr hs.events⟩

def textMessage (payload : Bytes) (h : payload.length < 2 ^ 32) : Message := ⟨.text, true, payload, h⟩

/-- Two texts of a client, the second in two pieces, and one that is cut off. -/
def twoTexts : List Step := [
  .send (textMessage [104, 105] (by decide)) { looks := [.moves 20], random := [1, 2, 3, 4] },
  .send (textMessage [111, 107] (by decide)) { looks := [.moves 3, .moves 0, .moves 20] },
  .loop true { looks := [.moves 1, .moves 0, .moves 20, .moves 20, .moves 20] },
  .send (textMessage [110, 111] (by decide)) { looks := [.moves 3, .lost] }]

set_option maxRecDepth 10000 in
theorem received_in_order_texts : ∃ got left, ((Link.start true).after twoTexts).sent = got ++ left ∧
    (((Link.start true).after twoTexts).receiver.events = got.map Message.event ∨
      ((Link.start true).after twoTexts).receiver.events = got.map Message.event ++ [⟨.disconnected, none⟩]) :=
  received_in_order true twoTexts
    ⟨⟨by decide, .inl (by decide)⟩, ⟨by decide, .inl (by decide)⟩, ⟨trivial, ⟨by decide, .inr (by decide)⟩, trivial⟩⟩

/-- The whole frames on the stream, one call of `loop` for each. -/
theorem flowing_loops {got : List Message} {left : List Frame} {tail : Bytes} (h : Flowing l got left [] tail)
    (hconn : l.receiver.net.connected = true) (hop : ∀ f ∈ left, f.opCode ≠ .close ∧ f.opCode ≠ .ping)
    {es : List Surroundings} (hes : es.length = left.length)
    (hsmooth : ∀ e ∈ es, (∀ b ∈ e.heap, b = true) ∧ Flows e.looks l.receiver.net.rx.length) :
    (l.after (es.map (Step.loop true))).receiver.events = (got ++ left.map Frame.message).map Message.event := by
  induction es generalizing l got left with
  | nil =>
    obtain rfl : left = [] := List.length_eq_zero_iff.1 hes.symm
    simpa [Link.after] using h.events
  | cons e es ih =>
    cases left with
    | nil => simp at hes
    | cons f left =>
      have hopen : Open (l.receiver.within e) := ⟨h.receiver.status, h.receiver.tcp, h.receiver.size, h.receiver.buffer⟩
      have hstream : (l.receiver.within e).net.rx = f.write ++ (framing.stream left ++ tail) := by
        show l.receiver.net.rx = _
        rw [h.stream, Framing.stream_cons, List.append_assoc]
        rfl
      have hne : (l.receiver.within e).net.rx.isEmpty = false := by
        rw [hstream, List.isEmpty_eq_false_iff]
        exact fun h => framing.write_ne_nil read_nil f (List.append_eq_nil_iff.1 h).1
      have hloop : (l.receiver.within e).loop true = (l.receiver.within e).handleWebsocket := by
        rw [loop_connected hopen hconn, if_pos (by simp [hne])]
      have hs : Smooth (l.receiver.within e) := ⟨(hsmooth e (by simp)).1, (hsmooth e (by simp)).2⟩
      have ho := outcome_handleWebsocket (hopen.reading hconn) hopen.size
      rw [hstream, ← hloop] at ho
      have hread := Frame.read_write f (framing.stream left ++ tail)
      obtain ⟨hclose, hping⟩ := hop f (by simp)
      rcases ho with ⟨g, r, hg, -, hr⟩ | ⟨-, hno⟩
      · obtain ⟨rfl, rfl⟩ := Prod.mk.inj (Option.some.inj (hg.symm.trans hread))
        have hlen : (framing.stream left ++ tail).length ≤ l.receiver.net.rx.length := by
          have : l.receiver.net.rx = g.write ++ (framing.stream left ++ tail) := hstream
          rw [this]
          exact (List.suffix_append _ _).length_le
        have hnext : Flowing (l.step (.loop true e)) (got ++ [g.message]) left [] tail := by
          refine ⟨?_, ⟨hr.status, hr.tcp, hr.size, hr.buffer⟩, ?_, hr.rx, h.behind⟩
          · show l.sent = _
            rw [h.sent]
            simp
          · show ((l.receiver.within e).loop true).events = _
            rw [hr.events, List.map_append]
            exact congrArg (· ++ _) h.events
        have hrest := ih hnext (hr.connected hping) (fun f hf => hop f (by simp [hf])) (by simpa using hes)
          fun e' he' => ⟨(hsmooth e' (by simp [he'])).1, (hsmooth e' (by simp [he'])).2.mono (by
            show ((l.receiver.within e).loop true).net.rx.length ≤ _
            rw [hr.rx]
            exact hlen)⟩
        simpa [Link.after] using hrest
      · exact absurd (hno hs _ _ hread) hclose

/-- And as long as the connection holds, all of it comes: one call of `loop` a message, if there is memory and the
bytes get through. -/
theorem all_received (fromClient : Bool) (steps : List Step) (h : (Link.start fromClient).Steady steps)
    (hopen : ((Link.start fromClient).after steps).receiver.tcp = true)
    (hconn : ((Link.start fromClient).after steps).receiver.net.connected = true)
    (hsent : ∀ m ∈ ((Link.start fromClient).after steps).sent,
      m.payload.length ≤ maxDataSize ∧ m.opCode ≠ .close ∧ m.opCode ≠ .ping)
    (es : List Surroundings) (hes : es.length + ((Link.start fromClient).after steps).receiver.events.length =
      ((Link.start fromClient).after steps).sent.length)
    (hsmooth : ∀ e ∈ es, (∀ b ∈ e.heap, b = true) ∧
      Flows e.looks ((Link.start fromClient).after steps).receiver.net.rx.length) :
    (((Link.start fromClient).after steps).after (es.map (Step.loop true))).receiver.events =
      ((Link.start fromClient).after steps).sent.map Message.event := by
  have hc := carried_after (carried_start fromClient) steps h
  generalize (Link.start fromClient).after steps = l at *
  rcases hc.receiver with ⟨got, left, rest, tail, hf⟩ | ⟨got, rest, hs⟩
  · have hsent' := hf.sent
    obtain rfl : rest = [] := by
      rcases hf.behind with ⟨hr, -⟩ | ⟨⟨m, hm, hbig⟩, -⟩
      · exact hr
      · have := (hsent m (by rw [hsent']; simp [hm])).1
        omega
    rw [List.append_nil] at hsent'
    rw [hsent'] at hes hsent ⊢
    rw [hf.events] at hes
    have hlen : es.length = left.length := by
      simp only [List.length_append, List.length_map] at hes
      omega
    refine flowing_loops hf hconn (fun f hf => ?_) hlen hsmooth
    exact (hsent f.message (List.mem_append_right _ (List.mem_map_of_mem hf))).2
  · exact absurd hopen (by simp [hs.receiver.tcp])

/-- Bytes go through one by one. -/
def slowly : Surroundings := { looks := List.replicate 20 (.moves 1) }

set_option maxRecDepth 10000 in
theorem all_received_texts :
    (((Link.start true).after twoTexts).after ([slowly].map (Step.loop true))).receiver.events =
      ((Link.start true).after twoTexts).sent.map Message.event := by
  refine all_received true twoTexts
    ⟨⟨by decide, .inl (by decide)⟩, ⟨by decide, .inl (by decide)⟩, ⟨trivial, ⟨by decide, .inr (by decide)⟩, trivial⟩⟩
    (by decide) (by decide) (fun m hm => ?_) [slowly] (by decide) fun e he => ?_
  · have hs : ((Link.start true).after twoTexts).sent =
        [textMessage [104, 105] (by decide), textMessage [111, 107] (by decide)] := rfl
    rw [hs] at hm
    simp only [List.mem_cons, List.not_mem_nil, or_false] at hm
    rcases hm with rfl | rfl <;> decide
  · obtain rfl : e = slowly := by simpa using he
    exact ⟨by decide, fun l hl => ⟨1, (List.mem_replicate.1 hl).2⟩, by decide⟩

end WebSockets
