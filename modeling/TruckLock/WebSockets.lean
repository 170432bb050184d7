import Mathlib.Data.List.Basic
import Mathlib.Data.UInt

/-!
# The WebSockets library

The frames that Center and the relay exchange, as the library writes them to a
connection and reads them from it: WebSockets.cpp, and what WebSocketsServer.cpp
and WebSocketsClient.cpp add for one connection after its handshake.
-/
namespace WebSockets

abbrev Bytes := List UInt8

/-- `WSopcode_t`. -/
inductive WSopcode where
  | continuation | text | binary | close | ping | pong
  deriving DecidableEq, Repr

def WSopcode.code : WSopcode → UInt8
  | .continuation => 0x00
  | .text => 0x01
  | .binary => 0x02
  | .close => 0x08
  | .ping => 0x09
  | .pong => 0x0A

/-- The codes without a name come to the default branches. -/
def WSopcode.ofCode (b : UInt8) : Option WSopcode :=
  if b = 0x00 then some .continuation
  else if b = 0x01 then some .text
  else if b = 0x02 then some .binary
  else if b = 0x08 then some .close
  else if b = 0x09 then some .ping
  else if b = 0x0A then some .pong
  else none

/-- `WStype_t`. -/
inductive WStype where
  | error | disconnected | connected | text | bin | fragmentTextStart | fragmentBinStart | fragment | fragmentFin
  | ping | pong
  deriving DecidableEq, Repr

inductive WSclientsStatus where
  | notConnected | header | body | connected
  deriving DecidableEq, Repr

/-- A call of the sketch's callback; `none` is `NULL`. The library puts a 0 behind the payload. -/
structure Event where
  type : WStype
  payload : Option Bytes
  deriving DecidableEq, Repr

/-- The payload as a C string. -/
def Event.text (e : Event) : Bytes := (e.payload.getD []).takeWhile (· ≠ 0)

/-- What a waiting loop finds when it looks at the connection: it is gone, five seconds without
a byte are over, or up to `k` bytes go through. -/
inductive Look where
  | lost
  | late
  | moves (k : Nat)
  deriving DecidableEq, Repr

/-- `maskKey` is an offset in `cWsHeader`. -/
structure WSMessageHeader where
  fin : Bool := false
  opCode : Option WSopcode := none
  mask : Bool := false
  payloadLen : Nat := 0
  maskKey : Nat := 0
  deriving DecidableEq, Repr

def maxHeaderSize : Nat := 14

def maxDataSize : Nat := 15 * 1024

/-- The connection behind `tcp`, with what its surroundings do. `connected` is `tcp->connected()`;
`rx` and `tx` are the bytes that have come and are not read yet, and those that have been written.
The lists are what the next waiting loops, allocations and calls of `random` will find: after
them, nothing moves for five seconds, there is memory, and the numbers are 0. -/
structure Net where
  connected : Bool := false
  rx : Bytes := []
  tx : Bytes := []
  looks : List Look := []
  heap : List Bool := []
  random : Bytes := []
  deriving DecidableEq, Repr

/-- `WSclient_t`, and the calls of the callback so far. -/
structure WSclient where
  cIsClient : Bool
  status : WSclientsStatus := .notConnected
  tcp : Bool := false
  cWsRXsize : Nat := 0
  cWsHeader : Bytes := List.replicate maxHeaderSize 0
  cWsHeaderDecode : WSMessageHeader := {}
  pongReceived : Bool := false
  net : Net := {}
  events : List Event := []
  deriving DecidableEq, Repr

def headerSize (length : Nat) (mask : Bool) : Nat :=
  (if length < 126 then 2 else if length < 0xFFFF then 4 else 10) + if mask then 4 else 0

def byteOf (n : Nat) : UInt8 := UInt8.ofNat n

/-- The second byte, and the longer forms of the length. -/
def lengthBytes (length : Nat) (mask : Bool) : Bytes :=
  let byte1 : UInt8 := if mask then 0x80 else 0x00
  if length < 126 then [byte1 ||| byteOf length]
  else if length < 0xFFFF then [byte1 ||| 126, byteOf (length >>> 8), byteOf length]
  else [byte1 ||| 127, 0x00, 0x00, 0x00, 0x00, byteOf (length >>> 24), byteOf (length >>> 16), byteOf (length >>> 8),
    byteOf length]

/-- The bytes that `createHeader` writes. -/
def createHeader (opcode : WSopcode) (length : Nat) (mask : Bool) (maskKey : Bytes) (fin : Bool) : Bytes :=
  ((if fin then 0x80 else 0x00) ||| opcode.code) :: lengthBytes length mask ++ if mask then maskKey else []

/-- The masking of a payload, and its removal. -/
def xorWith (maskKey : Bytes) (payload : Bytes) : Bytes :=
  payload.mapIdx fun i b => b ^^^ maskKey.getD (i % 4) 0

namespace Net

/-- The loop of `write`. -/
def writeLoop (out : Bytes) : List Look → Net → Nat × Net
  | [], c => (0, { c with looks := [] })
  | l :: ls, c =>
    if out.isEmpty then (0, { c with looks := l :: ls })
    else match l with
      | .lost => (0, { c with connected := false, looks := ls })
      | .late => (0, { c with looks := ls })
      | .moves k =>
        let (total, c) := writeLoop (out.drop k) ls { c with tx := c.tx ++ out.take k }
        ((out.take k).length + total, c)

/-- The loop of `readCb`, with the bytes that it has read. -/
def readLoop (n : Nat) : List Look → Net → Bool × Bytes × Net
  | [], c => (n == 0, [], { c with looks := [] })
  | l :: ls, c =>
    if n = 0 then (true, [], { c with looks := l :: ls })
    else match l with
      | .lost => (false, [], { c with connected := false, looks := ls })
      | .late => (false, [], { c with looks := ls })
      | .moves k =>
        let got := c.rx.take (min k n)
        let (ok, out, c) := readLoop (n - got.length) ls { c with rx := c.rx.drop got.length }
        (ok, got ++ out, c)

end Net

namespace WSclient

def write (s : WSclient) (out : Bytes) : Nat × WSclient :=
  if !s.tcp || !s.net.connected then (0, s)
  else
    let (total, net) := s.net.writeLoop out s.net.looks
    (total, { s with net := net })

/-- What `readCb` hands to its callback. -/
def readCb (s : WSclient) (n : Nat) : Bool × Bytes × WSclient :=
  if n = 0 then (true, [], s)
  else if !s.tcp || !s.net.connected then (false, [], s)
  else
    let (ok, out, net) := s.net.readLoop n s.net.looks
    (ok, out, { s with net := net })

def malloc (s : WSclient) : Bool × WSclient :=
  (s.net.heap.headD true, { s with net := { s.net with heap := s.net.heap.tail } })

def randomKey (s : WSclient) : Bytes × WSclient :=
  ((List.range 4).map fun x => s.net.random.getD x 0, { s with net := { s.net with random := s.net.random.drop 4 } })

/-- `sendFrame` without room for the header before the payload. -/
def sendFrame (s : WSclient) (opcode : WSopcode) (payload : Bytes) (fin : Bool) : Bool × WSclient :=
  if s.tcp && !s.net.connected then (false, s)
  else if s.status ≠ .connected then (false, s)
  else
    let length := payload.length
    let size := headerSize length s.cIsClient
    let (useInternBuffer, s) := if 0 < length ∧ length < 1400 then s.malloc else (false, s)
    let (maskKey, s) := if s.cIsClient && useInternBuffer then s.randomKey else ([0x00, 0x00, 0x00, 0x00], s)
    let header := createHeader opcode length s.cIsClient maskKey fin
    let payload := if s.cIsClient && useInternBuffer then xorWith maskKey payload else payload
    if useInternBuffer then
      let (n, s) := s.write (header ++ payload)
      (n == length + size, s)
    else
      let (n, s) := s.write header
      let ret := n == size
      if 0 < length then
        let (n, s) := s.write payload
        (ret && n == length, s)
      else (ret, s)

def runCbEvent (s : WSclient) (type : WStype) (payload : Option Bytes) : WSclient :=
  { s with events := s.events ++ [⟨type, payload⟩] }

/-- `clientDisconnect(client)` of the server and of the client class. -/
def disconnect (s : WSclient) : WSclient :=
  if s.cIsClient then
    let t := { s with tcp := false, net := { s.net with connected := false }, status := .notConnected }
    if s.tcp then t.runCbEvent .disconnected none else t
  else
    { s with tcp := false, net := { s.net with connected := false }, cWsRXsize := 0, status := .notConnected }.runCbEvent
      .disconnected none

/-- `clientDisconnect(client, code)`. -/
def clientDisconnect (s : WSclient) (code : Nat) : WSclient :=
  let s := if s.status = .connected ∧ code ≠ 0 then
    (s.sendFrame .close [byteOf (code >>> 8), byteOf code] true).2 else s
  s.disconnect

def messageReceived (s : WSclient) (opcode : WSopcode) (payload : Option Bytes) (fin : Bool) : WSclient :=
  match opcode with
  | .text => s.runCbEvent (if fin then .text else .fragmentTextStart) payload
  | .binary => s.runCbEvent (if fin then .bin else .fragmentBinStart) payload
  | .continuation => s.runCbEvent (if fin then .fragmentFin else .fragment) payload
  | .ping => s.runCbEvent .ping payload
  | .pong => s.runCbEvent .pong payload
  | .close => s.runCbEvent .error payload

/-- The branches of `handleWebsocketPayloadCb`. -/
def handleOpCode (s : WSclient) (payload : Option Bytes) : Option WSopcode → WSclient
  | some .text => s.messageReceived .text payload s.cWsHeaderDecode.fin
  | some .binary => s.messageReceived .binary payload s.cWsHeaderDecode.fin
  | some .continuation => s.messageReceived .continuation payload s.cWsHeaderDecode.fin
  | some .ping =>
    (s.sendFrame .pong (payload.getD []) true).2.messageReceived .ping payload s.cWsHeaderDecode.fin
  | some .pong => { s with pongReceived := true }.messageReceived .pong payload s.cWsHeaderDecode.fin
  | some .close => s.clientDisconnect 1000
  | none => s.clientDisconnect 1002

def handleWebsocketPayloadCb (s : WSclient) (ok : Bool) (payload : Option Bytes) : WSclient :=
  let header := s.cWsHeaderDecode
  if ok then
    let payload := if header.mask then payload.map (xorWith (s.cWsHeader.drop header.maskKey)) else payload
    { s.handleOpCode payload header.opCode with cWsRXsize := 0 }
  else s.clientDisconnect 1002

def store (s : WSclient) (out : Bytes) : WSclient :=
  { s with cWsHeader := s.cWsHeader.take s.cWsRXsize ++ out ++ s.cWsHeader.drop (s.cWsRXsize + out.length) }

/-- `cb` is the call of `handleWebsocketCb` that follows once the bytes are there. -/
def handleWebsocketWaitFor (cb : WSclient → WSclient) (s : WSclient) (size : Nat) : Bool × WSclient :=
  if !s.tcp || !s.net.connected then (false, s)
  else if maxHeaderSize < size then (false, s)
  else if size ≤ s.cWsRXsize then (true, s)
  else
    let (ok, out, s) := s.readCb (size - s.cWsRXsize)
    let s := s.store out
    if ok then (false, cb { s with cWsRXsize := size })
    else (false, { s with cWsRXsize := 0 }.clientDisconnect 1002)

def buffer (s : WSclient) (i : Nat) : UInt8 := s.cWsHeader.getD i 0

def splitFirst (s : WSclient) : WSclient :=
  { s with cWsHeaderDecode := { s.cWsHeaderDecode with
      fin := (s.buffer 0 >>> 7) &&& 0x01 = 0x01
      opCode := WSopcode.ofCode (s.buffer 0 &&& 0x0F)
      mask := (s.buffer 1 >>> 7) &&& 0x01 = 0x01
      payloadLen := (s.buffer 1 &&& 0x7F).toNat } }

def setLen (s : WSclient) (n : Nat) : WSclient :=
  { s with cWsHeaderDecode := { s.cWsHeaderDecode with payloadLen := n } }

/-- The longer forms of the length, with the length of the header up to here. -/
def extendLen (cb : WSclient → WSclient) (s : WSclient) : Bool × Nat × WSclient :=
  if s.cWsHeaderDecode.payloadLen = 126 then
    let (ok, s) := s.handleWebsocketWaitFor cb 4
    if !ok then (false, 4, s)
    else (true, 4, s.setLen ((s.buffer 2).toNat <<< 8 ||| (s.buffer 3).toNat))
  else if s.cWsHeaderDecode.payloadLen = 127 then
    let (ok, s) := s.handleWebsocketWaitFor cb 10
    if !ok then (false, 10, s)
    else if s.buffer 2 ≠ 0 ∨ s.buffer 3 ≠ 0 ∨ s.buffer 4 ≠ 0 ∨ s.buffer 5 ≠ 0 then (true, 10, s.setLen 0xFFFFFFFF)
    else (true, 10, s.setLen ((s.buffer 6).toNat <<< 24 ||| (s.buffer 7).toNat <<< 16 ||| (s.buffer 8).toNat <<< 8 |||
      (s.buffer 9).toNat))
  else (true, 2, s)

/-- The payload, after the header. -/
def readPayload (s : WSclient) : WSclient :=
  if 0 < s.cWsHeaderDecode.payloadLen then
    let (found, s) := s.malloc
    if !found then s.clientDisconnect 1011
    else
      let (ok, payload, s) := s.readCb s.cWsHeaderDecode.payloadLen
      s.handleWebsocketPayloadCb ok (some payload)
  else s.handleWebsocketPayloadCb true none

/-- `calls` bounds the calls inside one another: each one but the first has more bytes of the header. -/
def handleWebsocketCb : Nat → WSclient → WSclient
  | 0, s => s
  | calls + 1, s =>
    if !s.tcp || !s.net.connected then s
    else
      let (ok, s) := s.handleWebsocketWaitFor (handleWebsocketCb calls) 2
      if !ok then s
      else
        let (ok, headerLen, s) := s.splitFirst.extendLen (handleWebsocketCb calls)
        if !ok then s
        else if maxDataSize < s.cWsHeaderDecode.payloadLen then s.clientDisconnect 1009
        else if s.cWsHeaderDecode.mask then
          let (ok, s) := s.handleWebsocketWaitFor (handleWebsocketCb calls) (headerLen + 4)
          if !ok then s
          else { s with cWsHeaderDecode := { s.cWsHeaderDecode with maskKey := headerLen } }.readPayload
        else s.readPayload

def headerDone (s : WSclient) : WSclient := { s with status := .connected, cWsRXsize := 0 }

def handleWebsocket (s : WSclient) : WSclient := if s.cWsRXsize = 0 then handleWebsocketCb 4 s else s

def clientIsConnected (s : WSclient) : Bool × WSclient :=
  if !s.tcp then (false, s)
  else if s.net.connected then
    if s.status ≠ .notConnected then (true, s) else (false, s.disconnect)
  else
    let s := if s.status ≠ .notConnected then s.disconnect else s
    (false, if s.tcp then s.disconnect else s)

/-- `arrived` says whether bytes of the other end are there. In the handshake they are not read here. -/
def handleClientData (s : WSclient) (arrived : Bool) : WSclient :=
  if arrived && !s.net.rx.isEmpty then
    match s.status with
    | .header | .body => s
    | .connected => s.handleWebsocket
    | .notConnected => s.clientDisconnect 1002
  else s

/-- `loop` for one connection, without a new attempt to connect. -/
def loop (s : WSclient) (arrived : Bool) : WSclient :=
  let (connected, s) := s.clientIsConnected
  if connected then s.handleClientData arrived else s

/-- Also what `broadcastTXT` does for each of its clients. -/
def sendTXT (s : WSclient) (payload : Bytes) : Bool × WSclient :=
  let (connected, s) := s.clientIsConnected
  if connected then s.sendFrame .text payload true else (false, s)

end WSclient

end WebSockets
