import TruckLock.WebSocketsFrames

/-!
# Reading and writing frames

What one call of the library does to an end of a connection: a frame that has
been sent is on the stream, and a call that handles the stream takes one whole
frame off it and hands it to the sketch, or closes the connection.
-/
namespace WebSockets

section

variable {c : Net} {out : Bytes} {n : Nat} {r : Nat × Net}

/-- The result of a write. -/
structure Net.Wrote (c : Net) (out : Bytes) (ls : List Look) (r : Nat × Net) : Prop where
  le : r.1 ≤ out.length
  rx : r.2.rx = c.rx
  tx : r.2.tx = c.tx ++ out.take r.1
  whole : r.1 = out.length → r.2.connected = c.connected
  stopped : r.1 ≠ out.length → .late ∉ ls → r.2.connected = false ∨ r.2.looks = []

theorem Net.wrote_writeLoop (out : Bytes) (ls : List Look) (c : Net) : c.Wrote out ls (c.writeLoop out ls) := by
  induction ls generalizing out c with
  | nil => exact ⟨Nat.zero_le _, rfl, by simp [writeLoop], fun _ => rfl, fun _ _ => .inr rfl⟩
  | cons l ls ih =>
    by_cases hout : out = []
    · subst hout
      exact ⟨Nat.zero_le _, rfl, by simp [writeLoop], fun _ => rfl, fun h => absurd rfl h⟩
    · have hlen : out.length ≠ 0 := by simpa using hout
      have hne : out.isEmpty = false := by simpa using hout
      cases l with
      | lost =>
        simp only [writeLoop, hne, Bool.false_eq_true, if_false]
        exact ⟨Nat.zero_le _, rfl, by simp, fun h => absurd h.symm hlen, fun _ _ => .inl rfl⟩
      | late =>
        simp only [writeLoop, hne, Bool.false_eq_true, if_false]
        exact ⟨Nat.zero_le _, rfl, by simp, fun _ => rfl, fun _ h => absurd List.mem_cons_self h⟩
      | moves k =>
        obtain ⟨hle, hrx, htx, hwhole, hstopped⟩ := ih (out.drop k) { c with tx := c.tx ++ out.take k }
        simp only [writeLoop, hne, Bool.false_eq_true, if_false]
        simp only [List.length_drop] at hle hwhole hstopped
        refine ⟨?_, hrx, ?_, fun h => hwhole ?_, fun h hl => hstopped ?_ fun hm => hl (List.mem_cons_of_mem _ hm)⟩
        · rw [List.length_take]
          omega
        · rw [htx, List.append_assoc, List.take_add, List.length_take]
          rcases Nat.le_total k out.length with hk | hk
          · rw [Nat.min_eq_left hk]
          · rw [Nat.min_eq_right hk, List.drop_of_length_le hk, List.take_of_length_le hk, List.take_of_length_le le_rfl,
              List.drop_of_length_le le_rfl]
        · rw [List.length_take] at h
          omega
        · rw [List.length_take] at h
          omega

/-- The connection holds and never stalls, and bytes go through at least `m` times. -/
structure Flows (ls : List Look) (m : Nat) : Prop where
  moves : ∀ l ∈ ls, ∃ k, l = .moves k
  enough : m ≤ (ls.filter (· ≠ .moves 0)).length

theorem Flows.mono {ls : List Look} {m m' : Nat} (h : Flows ls m) (hm : m' ≤ m) : Flows ls m' :=
  ⟨h.moves, hm.trans h.enough⟩

/-- The result of a read. -/
structure Net.Took (c : Net) (ls : List Look) (n : Nat) (r : Bool × Bytes × Net) : Prop where
  out : r.2.1 = c.rx.take r.2.1.length
  rx : r.2.2.rx = c.rx.drop r.2.1.length
  le : r.2.1.length ≤ n
  heap : r.2.2.heap = c.heap
  full : r.1 = true → r.2.1.length = n ∧ r.2.2.connected = c.connected
  goes : ∀ m, Flows ls m → n ≤ m → n ≤ c.rx.length → r.1 = true ∧ Flows r.2.2.looks (m - n)

theorem Net.took_zero (c : Net) (ls : List Look) : c.Took ls 0 (true, [], { c with looks := ls }) :=
  ⟨rfl, rfl, le_rfl, rfl, fun _ => ⟨rfl, rfl⟩, fun _ h _ _ => ⟨rfl, h⟩⟩

theorem Net.took_readLoop (n : Nat) (ls : List Look) (c : Net) : c.Took ls n (c.readLoop n ls) := by
  induction ls generalizing n c with
  | nil =>
    refine ⟨rfl, rfl, Nat.zero_le _, rfl, fun h => ⟨?_, rfl⟩, fun m h hn _ => ?_⟩
    · exact (beq_iff_eq.1 h).symm
    · obtain rfl : m = 0 := by simpa using h.enough
      exact ⟨by simpa [readLoop] using hn, h.mono (Nat.sub_le _ _)⟩
  | cons l ls ih =>
    by_cases hn : n = 0
    · subst hn
      exact Net.took_zero c (l :: ls)
    cases l with
    | lost =>
      simp only [readLoop, hn, if_false]
      refine ⟨rfl, rfl, Nat.zero_le _, rfl, fun h => absurd h (by simp), fun m h _ _ => ?_⟩
      obtain ⟨k, hk⟩ := h.moves .lost (by simp)
      exact absurd hk (by simp)
    | late =>
      simp only [readLoop, hn, if_false]
      refine ⟨rfl, rfl, Nat.zero_le _, rfl, fun h => absurd h (by simp), fun m h _ _ => ?_⟩
      obtain ⟨k, hk⟩ := h.moves .late (by simp)
      exact absurd hk (by simp)
    | moves k =>
      have hgot : (c.rx.take (min k n)).length = min (min k n) c.rx.length := List.length_take
      have hrest := ih (n - (c.rx.take (min k n)).length) { c with rx := c.rx.drop (c.rx.take (min k n)).length }
      simp only [readLoop, hn, if_false]
      have htake : c.rx.take (min k n) = c.rx.take (c.rx.take (min k n)).length := by simp
      generalize c.rx.take (min k n) = got at hgot htake hrest ⊢
      generalize readLoop (n - got.length) ls { c with rx := c.rx.drop got.length } = r at hrest ⊢
      obtain ⟨ok, out, c'⟩ := r
      obtain ⟨hout, hrx, hle, hheap, hfull, hgoes⟩ := hrest
      simp only [List.length_drop] at hout hrx hle hfull hgoes ⊢
      refine ⟨?_, ?_, ?_, hheap, fun h => ?_, fun m h hnm hlen => ?_⟩
      · rw [List.length_append, List.take_add, ← hout, ← htake]
      · rw [hrx, List.drop_drop, List.length_append]
      · rw [List.length_append]
        omega
      · obtain ⟨hl, hc⟩ := hfull h
        refine ⟨?_, hc⟩
        rw [List.length_append, hl]
        omega
      · have hls : ∀ l ∈ ls, ∃ k, l = .moves k := fun l hl => h.moves l (by simp [hl])
        have henough := h.enough
        by_cases hk : k = 0
        · subst hk
          have hcount : m ≤ (ls.filter (· ≠ .moves 0)).length := by simpa using henough
          have := hgoes m ⟨hls, hcount⟩ (by omega) (by omega)
          simpa [hgot] using this
        · have hcount : m - 1 ≤ (ls.filter (· ≠ .moves 0)).length := by
            rw [List.filter_cons_of_pos (by simpa using hk), List.length_cons] at henough
            omega
          obtain ⟨hok, hflows⟩ := hgoes (m - 1) ⟨hls, hcount⟩ (by omega) (by omega)
          exact ⟨hok, hflows.mono (by omega)⟩

end

namespace WSclient

variable {s t : WSclient} {out payload w : Bytes} {n m : Nat}

theorem write_client (s : WSclient) (out : Bytes) : (s.write out).2 = { s with net := (s.write out).2.net } := by
  unfold write
  split <;> rfl

theorem wrote_write (s : WSclient) (out : Bytes) :
    s.net.Wrote out s.net.looks ((s.write out).1, (s.write out).2.net) ∨
      s.write out = (0, s) ∧ (s.tcp = false ∨ s.net.connected = false) := by
  unfold write
  split
  · rename_i hc
    exact .inr ⟨rfl, by simpa [Bool.or_eq_true] using hc⟩
  · exact .inl (Net.wrote_writeLoop out s.net.looks s.net)

theorem write_rx (s : WSclient) (out : Bytes) : (s.write out).2.net.rx = s.net.rx := by
  rcases wrote_write s out with h | ⟨h, -⟩
  · exact h.rx
  · rw [h]

theorem write_whole (h : (s.write out).1 = out.length) :
    (s.write out).2.net.tx = s.net.tx ++ out ∧ (s.write out).2.net.connected = s.net.connected := by
  rcases wrote_write s out with hw | ⟨hw, -⟩
  · have htx : (s.write out).2.net.tx = s.net.tx ++ out.take (s.write out).1 := hw.tx
    exact ⟨by rw [htx, h, List.take_length], hw.whole h⟩
  · rw [hw] at h ⊢
    have : out = [] := by simpa using h.symm
    simp [this]

/-- A write that does not finish. -/
theorem write_part (out : Bytes) (htcp : s.tcp = true) (h : (s.write out).1 ≠ out.length) :
    (∃ p q, p ++ q = out ∧ q ≠ [] ∧ (s.write out).2.net.tx = s.net.tx ++ p) ∧
      (.late ∉ s.net.looks → (s.write out).2.net.connected = false ∨ (s.write out).2.net.looks = []) := by
  rcases wrote_write s out with hw | ⟨hw, hno⟩
  · refine ⟨⟨out.take (s.write out).1, out.drop (s.write out).1, List.take_append_drop _ _, ?_, hw.tx⟩, hw.stopped h⟩
    have : (s.write out).1 < out.length := lt_of_le_of_ne hw.le h
    simpa using this
  · have hconn : s.net.connected = false := hno.resolve_left (by simp [htcp])
    rw [hw] at h ⊢
    exact ⟨⟨[], out, rfl, fun ho => h (by simp [ho]), by simp⟩, fun _ => .inl hconn⟩

/-- The frame on the stream. -/
def framed (opcode : WSopcode) (payload : Bytes) (fin : Bool) (key : Option Bytes) : Bytes :=
  createHeader opcode payload.length key.isSome (key.getD []) fin ++ masked key payload

/-- The result of `sendFrame`. -/
structure Sent (s : WSclient) (opcode : WSopcode) (payload : Bytes) (fin : Bool) (r : Bool × WSclient) : Prop where
  client : r.2 = { s with net := r.2.net }
  rx : r.2.net.rx = s.net.rx
  ok : r.1 = true → s.status = .connected ∧ r.2.net.connected = s.net.connected ∧ ∃ key : Option Bytes,
    (∀ k ∈ key, k.length = 4) ∧ key.isSome = s.cIsClient ∧ r.2.net.tx = s.net.tx ++ framed opcode payload fin key
  part : r.1 = false → s.tcp = true → .late ∉ s.net.looks → r.2.net.connected = false →
    ∃ (key : Option Bytes) (p q : Bytes),
    (∀ k ∈ key, k.length = 4) ∧ p ++ q = framed opcode payload fin key ∧ q ≠ [] ∧ r.2.net.tx = s.net.tx ++ p

section

variable {opcode : WSopcode} {fin : Bool} {key : Option Bytes} {r : Bool × WSclient}

theorem length_header (hkey : ∀ k ∈ key, k.length = 4) :
    (createHeader opcode payload.length key.isSome (key.getD []) fin).length = headerSize payload.length key.isSome := by
  refine length_createHeader fun h => ?_
  obtain ⟨k, rfl⟩ := Option.isSome_iff_exists.1 h
  exact hkey k rfl

theorem framed_ne_nil : framed opcode payload fin key ≠ [] := by simp [framed, createHeader]

/-- The memory and the random numbers leave the stream alone. -/
theorem Sent.after (h : Sent t opcode payload fin r) (hc : t = { s with net := t.net })
    (hn : t.net.rx = s.net.rx ∧ t.net.tx = s.net.tx ∧ t.net.connected = s.net.connected ∧ t.net.looks = s.net.looks) :
    Sent s opcode payload fin r := by
  obtain ⟨hrx, htx, hconn, hlooks⟩ := hn
  obtain ⟨net, rfl⟩ : ∃ net, t = { s with net := net } := ⟨_, hc⟩
  refine ⟨h.client, h.rx.trans hrx, fun hr => ?_, fun hr htcp hl hlost => ?_⟩
  · obtain ⟨hst, hco, key, hkey, hsome, hres⟩ := h.ok hr
    exact ⟨hst, hco.trans hconn, key, hkey, hsome, htx ▸ hres⟩
  · obtain ⟨key, p, q, hkey, hpq, hq, hres⟩ := h.part hr htcp (hlooks.symm ▸ hl) hlost
    exact ⟨key, p, q, hkey, hpq, hq, htx ▸ hres⟩

theorem sent_one (opcode : WSopcode) (payload : Bytes) (fin : Bool) (key : Option Bytes)
    (hst : s.status = .connected) (hkey : ∀ k ∈ key, k.length = 4) (hsome : key.isSome = s.cIsClient) :
    Sent s opcode payload fin ((s.write (framed opcode payload fin key)).1 ==
      payload.length + headerSize payload.length s.cIsClient, (s.write (framed opcode payload fin key)).2) := by
  have hlen : (framed opcode payload fin key).length = payload.length + headerSize payload.length s.cIsClient := by
    rw [framed, List.length_append, length_masked, length_header hkey, hsome, Nat.add_comm]
  refine ⟨write_client s _, write_rx s _, fun hr => ?_, fun hr htcp hl _ => ?_⟩
  · obtain ⟨htx, hconn⟩ := write_whole (beq_iff_eq.1 hr |>.trans hlen.symm)
    exact ⟨hst, hconn, key, hkey, hsome, htx⟩
  · obtain ⟨⟨p, q, hpq, hq, htx⟩, -⟩ := write_part (framed opcode payload fin key) htcp
      fun h => absurd (h.trans hlen) (by simpa using hr)
    exact ⟨key, p, q, hkey, hpq, hq, htx⟩

/-- Nothing goes through any more. -/
theorem write_idle (h : s.net.connected = false ∨ s.net.looks = []) (out : Bytes) :
    (s.write out).2.net.tx = s.net.tx ∧ (s.write out).2.net.connected = s.net.connected := by
  unfold write
  split
  · exact ⟨rfl, rfl⟩
  · rename_i hc
    have hls : s.net.looks = [] := h.resolve_left fun h => by simp [h] at hc
    rw [hls]
    exact ⟨rfl, rfl⟩

theorem sent_two (opcode : WSopcode) (payload : Bytes) (fin : Bool) (key : Option Bytes)
    (hst : s.status = .connected) (hkey : ∀ k ∈ key, k.length = 4) (hsome : key.isSome = s.cIsClient)
    (hmask : masked key payload = payload) :
    let header := createHeader opcode payload.length key.isSome (key.getD []) fin
    Sent s opcode payload fin
      (if 0 < payload.length then
        ((s.write header).1 == headerSize payload.length s.cIsClient &&
          ((s.write header).2.write payload).1 == payload.length, ((s.write header).2.write payload).2)
      else ((s.write header).1 == headerSize payload.length s.cIsClient, (s.write header).2)) := by
  intro header
  have hlen : header.length = headerSize payload.length s.cIsClient := hsome ▸ length_header hkey
  have hframed : framed opcode payload fin key = header ++ payload := by rw [framed, hmask]
  have hclient := write_client s header
  have hpart : s.tcp = true → .late ∉ s.net.looks → (s.write header).1 ≠ header.length →
      (∃ p q, p ++ q = framed opcode payload fin key ∧ q ≠ [] ∧ (s.write header).2.net.tx = s.net.tx ++ p) ∧
        ((s.write header).2.net.connected = false ∨ (s.write header).2.net.looks = []) := by
    intro htcp hl hne
    obtain ⟨⟨p, q, hpq, hq, htx⟩, hstop⟩ := write_part header htcp hne
    exact ⟨⟨p, q ++ payload, by rw [← List.append_assoc, hpq, hframed], by simp [hq], htx⟩, hstop hl⟩
  split
  · refine ⟨?_, ?_, fun hr => ?_, fun hr htcp hl hlost => ?_⟩
    · rw [write_client (s.write header).2 payload, hclient]
    · rw [write_rx, write_rx]
    · obtain ⟨hr₁, hr₂⟩ := Bool.and_eq_true_iff.1 hr
      obtain ⟨htx, hconn⟩ := write_whole (beq_iff_eq.1 hr₁ |>.trans hlen.symm)
      obtain ⟨htx', hconn'⟩ := write_whole (beq_iff_eq.1 hr₂)
      exact ⟨hst, hconn'.trans hconn, key, hkey, hsome, by rw [hframed, htx', htx, List.append_assoc]⟩
    · by_cases hn : (s.write header).1 = header.length
      · have hn' : ((s.write header).2.write payload).1 ≠ payload.length := by
          intro h
          simp [hn, hlen, h] at hr
        obtain ⟨htx, -⟩ := write_whole hn
        obtain ⟨⟨p, q, hpq, hq, htx'⟩, -⟩ := write_part payload (by rw [hclient]; exact htcp) hn'
        exact ⟨key, header ++ p, q, hkey, by rw [List.append_assoc, hpq, hframed], hq, by
          rw [htx', htx, List.append_assoc]⟩
      · obtain ⟨⟨p, q, hpq, hq, htx⟩, hstop⟩ := hpart htcp hl hn
        exact ⟨key, p, q, hkey, hpq, hq, (write_idle hstop payload).1.trans htx⟩
  · rename_i hzero
    have hnil : payload = [] := by simpa using hzero
    refine ⟨hclient, write_rx s header, fun hr => ?_, fun hr htcp hl _ => ?_⟩
    · obtain ⟨htx, hconn⟩ := write_whole (beq_iff_eq.1 hr |>.trans hlen.symm)
      exact ⟨hst, hconn, key, hkey, hsome, by rw [hframed, htx, hnil, List.append_nil]⟩
    · obtain ⟨⟨p, q, hpq, hq, htx⟩, -⟩ := hpart htcp hl fun h => absurd (h.trans hlen) (by simpa using hr)
      exact ⟨key, p, q, hkey, hpq, hq, htx⟩

end

/-- A frame that has been sent is on the stream, whole, and the connection is as before. -/
theorem sent_sendFrame (s : WSclient) (opcode : WSopcode) (payload : Bytes) (fin : Bool) :
    Sent s opcode payload fin (s.sendFrame opcode payload fin) := by
  have hno : Sent s opcode payload fin (false, s) :=
    ⟨rfl, rfl, fun h => absurd h (by simp), fun _ _ _ _ => ⟨none, [], _, by simp, rfl, framed_ne_nil, by simp⟩⟩
  unfold sendFrame
  split
  · exact hno
  split
  · exact hno
  rename_i hst
  have hst : s.status = .connected := by simpa using hst
  obtain ⟨use, s₁, huse, hc₁, hn₁⟩ : ∃ use s₁, (if 0 < payload.length ∧ payload.length < 1400 then s.malloc
      else (false, s)) = (use, s₁) ∧ s₁ = { s with net := s₁.net } ∧
      s₁.net.rx = s.net.rx ∧ s₁.net.tx = s.net.tx ∧ s₁.net.connected = s.net.connected ∧
      s₁.net.looks = s.net.looks := by
    split
    · exact ⟨_, _, rfl, rfl, rfl, rfl, rfl, rfl⟩
    · exact ⟨_, _, rfl, rfl, rfl, rfl, rfl, rfl⟩
  have hst₁ : s₁.status = .connected := by rw [hc₁]; exact hst
  have hcl₁ : s₁.cIsClient = s.cIsClient := by rw [hc₁]
  dsimp only
  rw [huse]
  refine Sent.after ?_ hc₁ hn₁
  -- Without a mask the key is not used.
  have hkey : ∀ key, createHeader opcode payload.length false key fin =
      createHeader opcode payload.length false [] fin := fun _ => rfl
  cases use with
  | false =>
    cases hcl : s.cIsClient with
    | false =>
      have h := sent_two opcode payload fin none hst₁ (by simp)
        (by simp [hcl₁, hcl]) rfl
      simpa [hcl₁, hcl, hkey [0, 0, 0, 0]] using h
    | true =>
      have h := sent_two opcode payload fin (some [0, 0, 0, 0]) hst₁ (by simp)
        (by simp [hcl₁, hcl]) (xorWith_zero payload)
      simpa [hcl₁, hcl] using h
  | true =>
    cases hcl : s.cIsClient with
    | false =>
      have h := sent_one opcode payload fin none hst₁ (by simp)
        (by simp [hcl₁, hcl])
      simpa [hcl₁, hcl, hkey [0, 0, 0, 0], framed, masked] using h
    | true =>
      refine Sent.after (t := s₁.randomKey.2) ?_ rfl ⟨rfl, rfl, rfl, rfl⟩
      have hcl₂ : s₁.randomKey.2.cIsClient = true := hcl₁.trans hcl
      have h := sent_one (s := s₁.randomKey.2) opcode payload fin (some s₁.randomKey.1) hst₁ (by simp [randomKey])
        hcl₂.symm
      simpa [hcl₁, hcl, hcl₂, framed, masked] using h

theorem took_readCb (htcp : s.tcp = true) (hconn : s.net.connected = true) (n : Nat) :
    (s.readCb n).2.2 = { s with net := (s.readCb n).2.2.net } ∧
      s.net.Took s.net.looks n ((s.readCb n).1, (s.readCb n).2.1, (s.readCb n).2.2.net) := by
  unfold readCb
  split
  · rename_i hn
    exact ⟨rfl, hn ▸ Net.took_zero s.net s.net.looks⟩
  · simp only [htcp, hconn, Bool.not_true, Bool.or_false, Bool.false_eq_true, if_false]
    exact ⟨trivial, Net.took_readLoop n s.net.looks s.net⟩

/-- The end is gone, and the sketch has been told so. -/
structure Closed (s t : WSclient) : Prop where
  cIsClient : t.cIsClient = s.cIsClient
  status : t.status = .notConnected
  tcp : t.tcp = false
  events : t.events = s.events ++ [⟨.disconnected, none⟩]

theorem Closed.after {u : WSclient} (h : Closed t u) (hc : t.cIsClient = s.cIsClient) (he : t.events = s.events) :
    Closed s u := ⟨h.cIsClient.trans hc, h.status, h.tcp, he ▸ h.events⟩

theorem closed_disconnect (h : s.tcp = true) : Closed s s.disconnect := by
  unfold disconnect
  split
  · exact ⟨rfl, rfl, rfl, rfl⟩
  · exact ⟨rfl, rfl, rfl, rfl⟩

theorem closed_clientDisconnect (h : s.tcp = true) (code : Nat) : Closed s (s.clientDisconnect code) := by
  unfold clientDisconnect
  split
  · have hs := (sent_sendFrame s .close [byteOf (code >>> 8), byteOf code] true).client
    exact (closed_disconnect (by rw [hs]; exact h)).after (by rw [hs]) (by rw [hs])
  · exact closed_disconnect h

theorem length_store (h : s.cWsRXsize + out.length ≤ s.cWsHeader.length) :
    (s.store out).cWsHeader.length = s.cWsHeader.length := by
  simp only [store, List.length_append, List.length_take, List.length_drop]
  omega

theorem take_store (out : Bytes) (h : s.cWsRXsize ≤ s.cWsHeader.length) :
    (s.store out).cWsHeader.take (s.cWsRXsize + out.length) = s.cWsHeader.take s.cWsRXsize ++ out := by
  have hl : (s.cWsHeader.take s.cWsRXsize ++ out).length = s.cWsRXsize + out.length := by
    rw [List.length_append, List.length_take, Nat.min_eq_left h]
  simp only [store]
  rw [← hl, List.take_left]

/-- A frame has been handed to the sketch. -/
structure Received (f : Frame) (rest : Bytes) (s t : WSclient) : Prop where
  cIsClient : t.cIsClient = s.cIsClient
  status : t.status = .connected
  tcp : t.tcp = true
  size : t.cWsRXsize = 0
  buffer : t.cWsHeader.length = maxHeaderSize
  rx : t.net.rx = rest
  connected : f.opCode ≠ .ping → t.net.connected = true
  events : t.events = s.events ++ [.of f.opCode f.fin f.payload]

/-- An open end with `cWsRXsize` bytes of the stream `w` in its header buffer and the others before it. -/
structure Reading (w : Bytes) (s : WSclient) : Prop where
  status : s.status = .connected
  tcp : s.tcp = true
  connected : s.net.connected = true
  buffer : s.cWsHeader.length = maxHeaderSize
  size : s.cWsRXsize ≤ w.length
  header : s.cWsHeader.take s.cWsRXsize = w.take s.cWsRXsize
  rx : s.net.rx = w.drop s.cWsRXsize

/-- There is memory, and all the bytes get through. -/
structure Smooth (s : WSclient) : Prop where
  heap : ∀ b ∈ s.net.heap, b = true
  looks : Flows s.net.looks s.net.rx.length

/-- The end has handed the first frame of the stream to the sketch, or it is gone: not without a reason. -/
def Outcome (w : Bytes) (s t : WSclient) : Prop :=
  (∃ f rest, Frame.read w = some (f, rest) ∧ f.opCode ≠ .close ∧ Received f rest s t) ∨
    Closed s t ∧ (Smooth s → ∀ f rest, Frame.read w = some (f, rest) → f.opCode = .close)

theorem Outcome.after {u : WSclient} (h : Outcome w t u) (hc : t.cIsClient = s.cIsClient) (he : t.events = s.events)
    (hs : Smooth s → Smooth t) : Outcome w s u := by
  rcases h with ⟨f, rest, hf, hop, hr⟩ | ⟨hcl, hno⟩
  · exact .inl ⟨f, rest, hf, hop, hr.cIsClient.trans hc, hr.status, hr.tcp, hr.size, hr.buffer, hr.rx, hr.connected,
      he ▸ hr.events⟩
  · exact .inr ⟨⟨hcl.cIsClient.trans hc, hcl.status, hcl.tcp, he ▸ hcl.events⟩, fun h => hno (hs h)⟩

/-- The next bytes of the header. -/
theorem Reading.waitFor (h : Reading w s) (cb : WSclient → WSclient) {size : Nat} (hmax : size ≤ maxHeaderSize)
    (hsize : s.cWsRXsize < size) :
    (s.handleWebsocketWaitFor cb size).1 = false ∧
      ((∃ t, Reading w t ∧ t.cWsRXsize = size ∧ t.cIsClient = s.cIsClient ∧ t.events = s.events ∧
          (Smooth s → Smooth t) ∧ (s.handleWebsocketWaitFor cb size).2 = cb t) ∨
        Closed s (s.handleWebsocketWaitFor cb size).2 ∧ (Smooth s → w.length < size)) := by
  obtain ⟨hcl, hout, hrx, hle, hheap, hfull, hgoes⟩ := took_readCb h.tcp h.connected (size - s.cWsRXsize)
  unfold handleWebsocketWaitFor
  rw [if_neg (by simp [h.tcp, h.connected]), if_neg (by omega), if_neg (by omega)]
  generalize s.readCb (size - s.cWsRXsize) = r at hcl hout hrx hle hheap hfull hgoes ⊢
  obtain ⟨ok, out, t⟩ := r
  simp only at hcl hout hrx hle hheap hfull hgoes ⊢
  have hc : t.cIsClient = s.cIsClient := by rw [hcl]
  have he : t.events = s.events := by rw [hcl]
  have hst : t.status = .connected := by rw [hcl]; exact h.status
  have htcp : t.tcp = true := by rw [hcl]; exact h.tcp
  have hbuf : t.cWsHeader = s.cWsHeader := by rw [hcl]
  have hrxs : t.cWsRXsize = s.cWsRXsize := by rw [hcl]
  cases ok with
  | false =>
    refine ⟨rfl, .inr ⟨(closed_clientDisconnect (s := { t.store out with cWsRXsize := 0 }) htcp 1002).after hc he,
      fun hs => ?_⟩⟩
    by_contra hw
    have hn : size - s.cWsRXsize ≤ s.net.rx.length := by
      rw [h.rx, List.length_drop]
      omega
    exact absurd (hgoes _ hs.looks hn hn).1 (by simp)
  | true =>
    obtain ⟨hlen, hconn⟩ := hfull rfl
    have hbytes : size ≤ w.length := by
      have := congrArg List.length hout
      rw [List.length_take, h.rx, List.length_drop] at this
      have := h.size
      omega
    have hn' : s.cWsRXsize + (size - s.cWsRXsize) = size := by omega
    have hn : t.cWsRXsize + out.length = size := by omega
    have hlen' : t.cWsHeader.length = maxHeaderSize := hbuf ▸ h.buffer
    refine ⟨rfl, .inl ⟨{ t.store out with cWsRXsize := size }, ⟨hst, htcp, hconn.trans h.connected, ?_, hbytes, ?_, ?_⟩,
      rfl, hc, he, fun hs => ⟨?_, ?_⟩, rfl⟩⟩
    · exact (length_store (by omega)).trans (hbuf ▸ h.buffer)
    · show (t.store out).cWsHeader.take size = w.take size
      have htake := take_store (s := t) out (by omega)
      rw [hn, hbuf, hrxs] at htake
      rw [htake, h.header, hout, h.rx, hlen, ← List.take_add, hn']
    · show t.net.rx = w.drop size
      rw [hrx, h.rx, List.drop_drop, hlen, hn']
    · show ∀ b ∈ t.net.heap, b = true
      rw [hheap]
      exact hs.heap
    · show Flows t.net.looks t.net.rx.length
      have hn : size - s.cWsRXsize ≤ s.net.rx.length := by
        rw [h.rx, List.length_drop]
        omega
      have := (hgoes _ hs.looks hn hn).2
      rwa [hrx, List.length_drop, hlen]

/-- The header buffer has been taken apart. -/
structure Decoded (w : Bytes) (s : WSclient) : Prop where
  fin : s.cWsHeaderDecode.fin = finBit w
  opCode : s.cWsHeaderDecode.opCode = opBits w
  mask : s.cWsHeaderDecode.mask = maskBit w
  payloadLen : s.cWsHeaderDecode.payloadLen = WebSockets.payloadLen w
  maskKey : maskBit w = true → s.cWsHeaderDecode.maskKey = lenEnd w

/-- The bytes of the payload, as they are on the stream. -/
def body (w : Bytes) : Bytes := (w.drop (headEnd w)).take (payloadLen w)

theorem Decoded.unmask (h : Decoded w s) (hh : s.cWsHeader.take (headEnd w) = w.take (headEnd w)) (p : Bytes) :
    (if s.cWsHeaderDecode.mask then xorWith (s.cWsHeader.drop s.cWsHeaderDecode.maskKey) p else p) =
      masked (keyBytes w) p := by
  rw [h.mask, keyBytes]
  split
  · rename_i hm
    have hhead : headEnd w = lenEnd w + 4 := by simp [headEnd, hm]
    have hkey : (s.cWsHeader.drop (lenEnd w)).take 4 = (w.drop (lenEnd w)).take 4 := by
      rw [List.take_drop, List.take_drop, ← hhead, hh]
    rw [h.maskKey hm, masked, Option.elim_some, ← hkey, xorWith_take]
  · rfl

theorem outcome_payloadCb (hst : s.status = .connected) (htcp : s.tcp = true) (hconn : s.net.connected = true)
    (hbuf : s.cWsHeader.length = maxHeaderSize) (hh : s.cWsHeader.take (headEnd w) = w.take (headEnd w))
    (hrx : s.net.rx = w.drop (headEnd w + payloadLen w)) (hd : Decoded w s) (hc : Complete w) :
    Outcome w s (s.handleWebsocketPayloadCb true (if body w = [] then none else some (body w))) := by
  have hnil : body w = [] ↔ masked (keyBytes w) (body w) = [] := by
    rw [← List.length_eq_zero_iff, ← List.length_eq_zero_iff, length_masked]
  have hp : (if s.cWsHeaderDecode.mask then (if body w = [] then none else some (body w)).map
      (xorWith (s.cWsHeader.drop s.cWsHeaderDecode.maskKey)) else if body w = [] then none else some (body w)) =
      if masked (keyBytes w) (body w) = [] then none else some (masked (keyBytes w) (body w)) := by
    have hun := hd.unmask hh (body w)
    by_cases hb : body w = []
    · rw [if_pos hb, if_pos (hnil.1 hb)]
      split <;> rfl
    · rw [if_neg hb, if_neg (hb ∘ hnil.2), ← hun]
      split <;> rfl
  unfold handleWebsocketPayloadCb
  simp only [if_true]
  rw [hp, hd.opCode]
  cases hop : opBits w with
  | none =>
    obtain ⟨hcl, hst', htcp', he⟩ := closed_clientDisconnect htcp 1002
    refine .inr ⟨⟨hcl, hst', htcp', he⟩, fun _ f rest hf => ?_⟩
    rw [Frame.read, dif_pos hc, hop] at hf
    exact absurd hf (by simp)
  | some op =>
    obtain ⟨f, hread, hop', hfin, hpay⟩ : ∃ f, Frame.read w = some (f, w.drop (headEnd w + payloadLen w)) ∧
        f.opCode = op ∧ f.fin = finBit w ∧ f.payload = masked (keyBytes w) (body w) := by
      rw [Frame.read, dif_pos hc, hop]
      exact ⟨_, rfl, rfl, rfl, rfl⟩
    rw [← hpay]
    have hreceived : ∀ t : WSclient, (t.cIsClient = s.cIsClient ∧ t.status = .connected ∧ t.tcp = true ∧
        t.cWsHeader.length = maxHeaderSize ∧ t.net.rx = s.net.rx) → (op ≠ .ping → t.net.connected = true) →
        op ≠ .close → t.events = s.events ++ [.of f.opCode f.fin f.payload] → Outcome w s { t with cWsRXsize := 0 } := by
      intro t ht hping hclose he
      obtain ⟨hcl, hst', htcp', hbuf', hrx'⟩ := ht
      rw [← hop'] at hping hclose
      exact .inl ⟨f, _, hread, hclose, hcl, hst', htcp', rfl, hbuf', hrx'.trans hrx, hping, he⟩
    have hplain : s.cIsClient = s.cIsClient ∧ s.status = .connected ∧ s.tcp = true ∧
        s.cWsHeader.length = maxHeaderSize ∧ s.net.rx = s.net.rx := ⟨rfl, hst, htcp, hbuf, rfl⟩
    cases op with
    | close =>
      obtain ⟨hcl, hst', htcp', he⟩ := closed_clientDisconnect htcp 1000
      refine .inr ⟨⟨hcl, hst', htcp', he⟩, fun _ g rest hg => ?_⟩
      rw [hread] at hg
      obtain ⟨rfl, -⟩ := Prod.mk.inj (Option.some.inj hg)
      exact hop'
    | ping =>
      obtain ⟨hcl, hsrx, -⟩ := sent_sendFrame s .pong ((if f.payload = [] then none else some f.payload).getD []) true
      show Outcome w s { (s.sendFrame .pong _ true).2.messageReceived .ping _ s.cWsHeaderDecode.fin with cWsRXsize := 0 }
      generalize (s.sendFrame .pong _ true).2 = t at hcl hsrx ⊢
      obtain ⟨net, rfl⟩ : ∃ net, t = { s with net := net } := ⟨_, hcl⟩
      refine hreceived _ ⟨rfl, hst, htcp, hbuf, hsrx⟩ (fun h => absurd rfl h) (by simp) ?_
      rw [Event.of.eq_def, hop']
      rfl
    | text =>
      refine hreceived (s.messageReceived .text _ _) hplain (fun _ => hconn) (by simp) ?_
      rw [Event.of.eq_def, hop', hfin, ← hd.fin]
      rfl
    | binary =>
      refine hreceived (s.messageReceived .binary _ _) hplain (fun _ => hconn) (by simp) ?_
      rw [Event.of.eq_def, hop', hfin, ← hd.fin]
      rfl
    | continuation =>
      refine hreceived (s.messageReceived .continuation _ _) hplain (fun _ => hconn) (by simp) ?_
      rw [Event.of.eq_def, hop', hfin, ← hd.fin]
      rfl
    | pong =>
      refine hreceived ({ s with pongReceived := true }.messageReceived .pong _ s.cWsHeaderDecode.fin) hplain
        (fun _ => hconn) (by simp) ?_
      rw [Event.of.eq_def, hop']
      rfl

theorem two_le_lenEnd (w : Bytes) : 2 ≤ lenEnd w := by
  unfold lenEnd
  split <;> [skip; split] <;> omega

theorem complete_of_read {f : Frame} {rest : Bytes} (h : Frame.read w = some (f, rest)) : Complete w := by
  by_contra hc
  rw [Frame.read, dif_neg hc] at h
  exact absurd h (by simp)

/-- The header is there: the payload is read. -/
theorem outcome_readBody (h : Reading w s) (hsize : s.cWsRXsize = headEnd w) (hd : Decoded w s)
    (hlen : payloadLen w ≤ maxDataSize) (hpos : 0 < payloadLen w) :
    Outcome w s ((s.readCb (payloadLen w)).2.2.handleWebsocketPayloadCb (s.readCb (payloadLen w)).1
      (some (s.readCb (payloadLen w)).2.1)) := by
  have h2 : 2 ≤ headEnd w := (two_le_lenEnd w).trans (Nat.le_add_right _ _)
  have hrx : s.net.rx = w.drop (headEnd w) := hsize ▸ h.rx
  obtain ⟨hcl, hout, hrx', -, hheap, hfull, hgoes⟩ := took_readCb h.tcp h.connected (payloadLen w)
  generalize s.readCb (payloadLen w) = r at hcl hout hrx' hheap hfull hgoes ⊢
  obtain ⟨ok, out, t⟩ := r
  simp only at hcl hout hrx' hheap hfull hgoes ⊢
  obtain ⟨net, rfl⟩ : ∃ net, t = { s with net := net } := ⟨_, hcl⟩
  cases ok with
  | false =>
    refine .inr ⟨(closed_clientDisconnect (s := { s with net := net }) h.tcp 1002).after rfl rfl,
      fun hs f rest hf => ?_⟩
    have hn : payloadLen w ≤ s.net.rx.length := by
      have := (complete_of_read hf).2.2
      rw [hrx, List.length_drop]
      omega
    exact absurd (hgoes _ hs.looks hn hn).1 (by simp)
  | true =>
    obtain ⟨hl, hconn⟩ := hfull rfl
    have hbody : out = body w := by rw [hout, hrx, hl, body]
    have hw : payloadLen w + headEnd w ≤ w.length := by
      have := congrArg List.length hout
      rw [List.length_take, hrx, List.length_drop] at this
      omega
    have hne : body w ≠ [] := by
      rw [← hbody, ← List.length_pos_iff_ne_nil]
      omega
    have ho := outcome_payloadCb (s := { s with net := net }) h.status h.tcp (hconn.trans h.connected) h.buffer
      (hsize ▸ h.header) (hrx'.trans (by rw [hrx, List.drop_drop, hl])) ⟨hd.fin, hd.opCode, hd.mask, hd.payloadLen,
        hd.maskKey⟩ ⟨by omega, hlen, by omega⟩
    rw [if_neg hne, ← hbody] at ho
    refine ho.after rfl rfl fun hs => ⟨fun b hb => hs.heap b (hheap ▸ hb), ?_⟩
    have hn : payloadLen w ≤ s.net.rx.length := by
      rw [hrx, List.length_drop]
      omega
    show Flows net.looks net.rx.length
    rw [hrx', List.length_drop, hl]
    exact (hgoes _ hs.looks hn hn).2

theorem outcome_readPayload (h : Reading w s) (hsize : s.cWsRXsize = headEnd w) (hd : Decoded w s)
    (hlen : payloadLen w ≤ maxDataSize) : Outcome w s s.readPayload := by
  unfold readPayload
  rw [hd.payloadLen]
  by_cases hpos : 0 < payloadLen w
  · rw [if_pos hpos]
    unfold malloc
    dsimp only
    cases hfound : s.net.heap.headD true with
    | false =>
      refine .inr ⟨(closed_clientDisconnect (s := { s with net := { s.net with heap := s.net.heap.tail } }) h.tcp
        1011).after rfl rfl, fun hs => ?_⟩
      cases hheap : s.net.heap with
      | nil => simp [hheap] at hfound
      | cons b l =>
        obtain rfl : b = false := by simpa [hheap] using hfound
        exact absurd (hs.heap false (by simp [hheap])) (by simp)
    | true =>
      refine Outcome.after (t := { s with net := { s.net with heap := s.net.heap.tail } }) ?_ rfl rfl
        fun hs => ⟨fun b hb => hs.heap b (List.mem_of_mem_tail hb), hs.looks⟩
      have ho := outcome_readBody (s := { s with net := { s.net with heap := s.net.heap.tail } })
        ⟨h.status, h.tcp, h.connected, h.buffer, h.size, h.header, h.rx⟩ hsize
        ⟨hd.fin, hd.opCode, hd.mask, hd.payloadLen, hd.maskKey⟩ hlen hpos
      rw [← hd.payloadLen] at ho
      exact ho
  · rw [if_neg hpos]
    have hzero : payloadLen w = 0 := by omega
    have hnil : body w = [] := by simp [body, hzero]
    have hw : headEnd w ≤ w.length := hsize ▸ h.size
    have ho := outcome_payloadCb h.status h.tcp h.connected h.buffer (hsize ▸ h.header)
      (by rw [hzero, Nat.add_zero, ← hsize]; exact h.rx) hd
      ⟨((two_le_lenEnd w).trans (Nat.le_add_right _ _)).trans hw, hlen, by omega⟩
    rwa [if_pos hnil] at ho

theorem Reading.getD (h : Reading w s) : ∀ i < s.cWsRXsize, s.cWsHeader.getD i 0 = w.getD i 0 := by
  intro i hi
  have := congrArg (fun l => l.getD i 0) h.header
  simpa [List.getD_eq_getElem?_getD, List.getElem?_take, hi] using this

section

variable {cb : WSclient → WSclient} {size calls : Nat}

theorem Reading.ready (h : Reading w s) (hmax : size ≤ maxHeaderSize) (hs : size ≤ s.cWsRXsize) :
    s.handleWebsocketWaitFor cb size = (true, s) := by
  unfold handleWebsocketWaitFor
  rw [if_neg (by simp [h.tcp, h.connected]), if_neg (by omega), if_pos hs]

/-- Bytes of the header that are not there yet. -/
theorem outcome_waitFor (h : Reading w s) (hmax : size ≤ maxHeaderSize) (hsize : s.cWsRXsize < size)
    (hneed : Complete w → size ≤ w.length)
    (hcb : ∀ t, Reading w t → t.cWsRXsize = size → Outcome w t (cb t)) :
    Outcome w s (s.handleWebsocketWaitFor cb size).2 := by
  obtain ⟨-, ⟨t, ht, hts, hc, he, hsm, hres⟩ | ⟨hcl, hno⟩⟩ := h.waitFor cb hmax hsize
  · rw [hres]
    exact (hcb t ht hts).after hc he hsm
  · refine .inr ⟨hcl, fun hs f rest hf => ?_⟩
    have := hneed (complete_of_read hf)
    have := hno hs
    omega

theorem Reading.splitFirst (h : Reading w s) : Reading w s.splitFirst :=
  ⟨h.status, h.tcp, h.connected, h.buffer, h.size, h.header, h.rx⟩

theorem Reading.setLen (h : Reading w s) (n : Nat) : Reading w (s.setLen n) :=
  ⟨h.status, h.tcp, h.connected, h.buffer, h.size, h.header, h.rx⟩

/-- The length in its longer forms. -/
theorem extendLen_ready (h : Reading w s) (hs : lenEnd w ≤ s.cWsRXsize) :
    s.splitFirst.extendLen cb = (true, lenEnd w, s.splitFirst.setLen (payloadLen w)) := by
  have h2 : 2 ≤ s.cWsRXsize := (two_le_lenEnd w).trans hs
  obtain ⟨-, -, -, hlen⟩ := fields_congr h.getD h2
  have hp := payloadLen_congr h.getD hs
  have hbits : s.splitFirst.cWsHeaderDecode.payloadLen = lenBits w := hlen
  unfold extendLen
  rw [hbits]
  by_cases h₁ : lenBits w = 126
  · have he : lenEnd w = 4 := by rw [lenEnd, if_pos h₁]
    have hl : lenBits s.cWsHeader = 126 := hlen.trans h₁
    rw [if_pos h₁, h.splitFirst.ready (by decide) (he ▸ hs), he, ← hp, payloadLen, if_pos hl]
    rfl
  by_cases h₂ : lenBits w = 127
  · have he : lenEnd w = 10 := by rw [lenEnd, if_neg h₁, if_pos h₂]
    have hl : lenBits s.cWsHeader = 127 := hlen.trans h₂
    rw [if_neg h₁, if_pos h₂, h.splitFirst.ready (by decide) (he ▸ hs), he, ← hp, payloadLen, if_neg (by omega), if_pos hl]
    have hb : ∀ i, s.splitFirst.buffer i = s.cWsHeader.getD i 0 := fun _ => rfl
    simp only [hb, Bool.not_true, Bool.false_eq_true, if_false]
    split <;> rfl
  · have he : lenEnd w = 2 := by rw [lenEnd, if_neg h₁, if_neg h₂]
    have hl : payloadLen w = lenBits w := by rw [payloadLen, if_neg h₁, if_neg h₂]
    rw [if_neg h₁, if_neg h₂, he, hl, ← hlen]
    rfl

theorem extendLen_wait (cb : WSclient → WSclient) (h : Reading w s) (h2 : 2 ≤ s.cWsRXsize) (hs : s.cWsRXsize < lenEnd w) :
    (s.splitFirst.extendLen cb).1 = false ∧
      (s.splitFirst.extendLen cb).2.2 = (s.splitFirst.handleWebsocketWaitFor cb (lenEnd w)).2 := by
  obtain ⟨-, -, -, hlen⟩ := fields_congr h.getD h2
  have hbits : s.splitFirst.cWsHeaderDecode.payloadLen = lenBits w := hlen
  have hmax : lenEnd w ≤ maxHeaderSize := by
    unfold lenEnd maxHeaderSize
    split <;> [skip; split] <;> omega
  have hwait : s.splitFirst.handleWebsocketWaitFor cb (lenEnd w) =
      (false, (s.splitFirst.handleWebsocketWaitFor cb (lenEnd w)).2) :=
    Prod.ext (h.splitFirst.waitFor cb hmax hs).1 rfl
  unfold extendLen
  rw [hbits]
  unfold lenEnd at hs hwait ⊢
  split at hs
  · rename_i h₁
    rw [if_pos h₁] at hwait
    rw [if_pos h₁, if_pos h₁, hwait]
    exact ⟨rfl, rfl⟩
  split at hs
  · rename_i h₁ h₂
    rw [if_neg h₁, if_pos h₂] at hwait
    rw [if_neg h₁, if_pos h₂, if_neg h₁, if_pos h₂, hwait]
    exact ⟨rfl, rfl⟩
  · omega

theorem decoded_splitFirst (h : Reading w s) (h2 : 2 ≤ s.cWsRXsize) :
    s.splitFirst.cWsHeaderDecode.fin = finBit w ∧ s.splitFirst.cWsHeaderDecode.opCode = opBits w ∧
      s.splitFirst.cWsHeaderDecode.mask = maskBit w := by
  obtain ⟨hfin, hop, hm, -⟩ := fields_congr h.getD h2
  exact ⟨hfin, hop, hm⟩

/-- The header is there, with or without the mask. -/
theorem outcome_header (h : Reading w s) (hs : s.cWsRXsize = lenEnd w ∨ s.cWsRXsize = headEnd w)
    (hcb : s.cWsRXsize < headEnd w → ∀ t, Reading w t → t.cWsRXsize = headEnd w →
      Outcome w t (handleWebsocketCb calls t)) : Outcome w s (handleWebsocketCb (calls + 1) s) := by
  have hle : lenEnd w ≤ s.cWsRXsize := by
    have : lenEnd w ≤ headEnd w := Nat.le_add_right _ _
    omega
  have h2 : 2 ≤ s.cWsRXsize := (two_le_lenEnd w).trans hle
  have hmax : headEnd w ≤ maxHeaderSize := by
    unfold headEnd lenEnd maxHeaderSize
    split <;> [skip; split] <;> split <;> omega
  obtain ⟨hfin, hop, hmask⟩ := decoded_splitFirst h h2
  have ht := h.splitFirst.setLen (payloadLen w)
  rw [handleWebsocketCb, if_neg (by simp [h.tcp, h.connected]), h.ready (by decide) h2]
  simp only [Bool.not_true, Bool.false_eq_true, if_false]
  rw [extendLen_ready h hle]
  simp only [Bool.not_true, Bool.false_eq_true, if_false]
  refine Outcome.after (t := s.splitFirst.setLen (payloadLen w)) ?_ rfl rfl fun hs => ⟨hs.heap, hs.looks⟩
  split
  · rename_i hbig
    refine .inr ⟨closed_clientDisconnect ht.tcp 1009, fun _ f rest hf => ?_⟩
    have : payloadLen w ≤ maxDataSize := (complete_of_read hf).2.1
    exact absurd this (Nat.not_le.2 hbig)
  rename_i hlen
  have hlen : payloadLen w ≤ maxDataSize := Nat.not_lt.1 hlen
  split
  · rename_i hm
    have hm : maskBit w = true := hmask ▸ hm
    have hhead : headEnd w = lenEnd w + 4 := by simp [headEnd, hm]
    rw [← hhead]
    by_cases hlt : s.cWsRXsize < headEnd w
    · have hwait : (s.splitFirst.setLen (payloadLen w)).handleWebsocketWaitFor (handleWebsocketCb calls) (headEnd w) =
          (false, ((s.splitFirst.setLen (payloadLen w)).handleWebsocketWaitFor (handleWebsocketCb calls)
            (headEnd w)).2) := Prod.ext (ht.waitFor _ hmax hlt).1 rfl
      rw [hwait]
      exact outcome_waitFor ht hmax hlt (fun hc => by have := hc.2.2; omega) (hcb hlt)
    · have hsize : s.cWsRXsize = headEnd w := by omega
      rw [ht.ready hmax hsize.ge]
      have ho := outcome_readPayload (s := { s.splitFirst.setLen (payloadLen w) with
        cWsHeaderDecode := { (s.splitFirst.setLen (payloadLen w)).cWsHeaderDecode with maskKey := lenEnd w } })
        ⟨ht.status, ht.tcp, ht.connected, ht.buffer, ht.size, ht.header, ht.rx⟩ hsize
        ⟨hfin, hop, hmask, rfl, fun _ => rfl⟩ hlen
      exact ho.after rfl rfl fun hs => ⟨hs.heap, hs.looks⟩
  · rename_i hm
    have hm : ¬ maskBit w = true := hmask ▸ hm
    have hhead : headEnd w = lenEnd w := by simp [headEnd, hm]
    exact outcome_readPayload ht (by rw [hhead] at hs ⊢; exact hs.elim id id) ⟨hfin, hop, hmask, rfl,
      fun h => absurd h hm⟩ hlen

theorem outcome_masked (h : Reading w s) (hs : s.cWsRXsize = headEnd w) :
    Outcome w s (handleWebsocketCb (calls + 1) s) :=
  outcome_header h (.inr hs) fun hlt => by omega

theorem outcome_length (h : Reading w s) (hs : s.cWsRXsize = lenEnd w) :
    Outcome w s (handleWebsocketCb (calls + 2) s) :=
  outcome_header h (.inl hs) fun _ _ ht hts => outcome_masked ht hts

/-- The first two bytes are there. -/
theorem outcome_start (calls : Nat) (h : Reading w s) (hs : s.cWsRXsize = 2) :
    Outcome w s (handleWebsocketCb (calls + 3) s) := by
  by_cases hlt : s.cWsRXsize < lenEnd w
  · have hmax : lenEnd w ≤ maxHeaderSize := by
      unfold lenEnd maxHeaderSize
      split <;> [skip; split] <;> omega
    obtain ⟨hfst, hsnd⟩ := extendLen_wait (handleWebsocketCb (calls + 2)) h (by omega) hlt
    have hex : s.splitFirst.extendLen (handleWebsocketCb (calls + 2)) = (false,
        (s.splitFirst.extendLen (handleWebsocketCb (calls + 2))).2.1,
        (s.splitFirst.handleWebsocketWaitFor (handleWebsocketCb (calls + 2)) (lenEnd w)).2) :=
      Prod.ext hfst (Prod.ext rfl hsnd)
    rw [handleWebsocketCb, if_neg (by simp [h.tcp, h.connected]), h.ready (by decide) (by omega)]
    simp only [Bool.not_true, Bool.false_eq_true, if_false]
    rw [hex]
    refine (outcome_waitFor h.splitFirst hmax hlt (fun hc => ?_) fun _ ht hts => outcome_length ht hts).after rfl rfl
      fun hs => ⟨hs.heap, hs.looks⟩
    have : lenEnd w ≤ headEnd w := Nat.le_add_right _ _
    have := hc.2.2
    omega
  · have : 2 ≤ lenEnd w := two_le_lenEnd w
    exact outcome_length h (by omega)

/-- One call of `handleWebsocket` between two frames. -/
theorem outcome_handleWebsocket (h : Reading w s) (hs : s.cWsRXsize = 0) : Outcome w s s.handleWebsocket := by
  have hwait : s.handleWebsocketWaitFor (handleWebsocketCb 3) 2 =
      (false, (s.handleWebsocketWaitFor (handleWebsocketCb 3) 2).2) :=
    Prod.ext (h.waitFor _ (by decide) (by omega)).1 rfl
  rw [handleWebsocket, if_pos hs, handleWebsocketCb, if_neg (by simp [h.tcp, h.connected]), hwait]
  exact outcome_waitFor h (by decide) (by omega) And.left fun _ ht hts => outcome_start 0 ht hts

end

end WSclient

end WebSockets
