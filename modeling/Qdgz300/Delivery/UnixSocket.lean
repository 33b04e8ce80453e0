import Qdgz300.Delivery.SharedMemory

/-!
# Unix-socket delivery (`UnixSocketDelivery` of `delivery/delivery_interface.cpp`)

One message for each packet on a `SOCK_SEQPACKET` socket: the payload size, the flags and the
payload. A socket that is not open is connected first, at most once per backoff interval; the
interval doubles with every failure, up to 5 s.

The answers of the system calls are given with the call (`SocketCalls`), the readings of
`steady_clock` as for the reorderer.
-/

namespace Qdgz300.Delivery

open Protocol Pipeline Bytes SharedMemoryDelivery

/-- How `send` ends: everything sent, or not, with what `errno` says. -/
inductive SendResult where
  | complete | again | disconnected | failed
  deriving DecidableEq, Repr

/-- The answers to `socket`, `connect` and `send` during a call. -/
structure SocketCalls where
  socketOk : Bool := true
  connectOk : Bool := true
  send : SendResult := .complete

/-- `UnixSocketDelivery::Impl`; `connected` is `sock_fd >= 0`, and `nextReconnect` is `none` for
`time_point::min()`. -/
structure UnixSocketDelivery where
  socketPath : List Byte
  reconnectIntervalMs : BitVec 32
  currentBackoffMs : BitVec 32
  stats : Statistics := {}
  connected : Bool := false
  nextReconnect : Option Int := none
  reads : Nat := 0

namespace UnixSocketDelivery

/-- `sizeof(addr.sun_path)`. -/
def sunPathSize : Nat := 108

def scheduleReconnect (clk : SteadyClock) (s : UnixSocketDelivery) : UnixSocketDelivery :=
  { s with
    nextReconnect := some (clk s.reads + s.currentBackoffMs.toNat * 1000000)
    currentBackoffMs := if s.currentBackoffMs * 2 < 5000 then s.currentBackoffMs * 2 else 5000
    reads := s.reads + 1 }

def connectWithBackoff (clk : SteadyClock) (calls : SocketCalls) (s : UnixSocketDelivery) :
    UnixSocketDelivery × Bool :=
  if s.socketPath = [] then (s, false)
  else
    let now := clk s.reads
    let s1 := { s with reads := s.reads + 1 }
    if s.nextReconnect.any (fun t => decide (now < t)) then (s1, false)
    else
      -- an open socket is closed here
      let s2 := { s1 with connected := false }
      if calls.socketOk = false then (s2.scheduleReconnect clk, false)
      else if sunPathSize ≤ s.socketPath.length then (s2.scheduleReconnect clk, false)
      else if calls.connectOk = false then (s2.scheduleReconnect clk, false)
      else
        ({ s2 with
          connected := true
          currentBackoffMs := if s.reconnectIntervalMs < 1 then 1 else s.reconnectIntervalMs
          nextReconnect := none }, true)

/-- The constructor. -/
def new (clk : SteadyClock) (calls : SocketCalls) (socketPath : List Byte)
    (reconnectIntervalMs : BitVec 32) : UnixSocketDelivery :=
  let interval := if reconnectIntervalMs < 1 then 1 else reconnectIntervalMs
  (connectWithBackoff clk calls
    { socketPath, reconnectIntervalMs := interval, currentBackoffMs := interval }).1

/-- The message of a packet: the buffer is zeroed, and the payload is copied over when there is
one. -/
def wire (packet : OrderedPacket) : List Byte :=
  let n := payloadSize packet
  toLe 4 n ++ toLe 4 0 ++
    match packet.packet.payload with
    | some bytes => if 0 < n then bytes.take n else []
    | none => List.replicate n 0

def countError (s : UnixSocketDelivery) : UnixSocketDelivery :=
  { s with stats := { s.stats with deliveryErrors := s.stats.deliveryErrors + 1 } }

/-- The message of a packet on an open socket. -/
def sendWire (clk : SteadyClock) (calls : SocketCalls) (s : UnixSocketDelivery)
    (packet : OrderedPacket) : UnixSocketDelivery × Bool :=
  match calls.send with
  | .complete =>
    ({ s with stats := { s.stats with
      deliveredPackets := s.stats.deliveredPackets + 1
      bytesDelivered := s.stats.bytesDelivered + payloadSize packet } }, true)
  | .disconnected => ((({ s with connected := false }).scheduleReconnect clk).countError, false)
  | .again => (s.countError, false)
  | .failed => (s.countError, false)

/-- `deliver`: the new state, the message given to `send`, and the result. -/
def deliver (clk : SteadyClock) (calls : SocketCalls) (s : UnixSocketDelivery)
    (packet : OrderedPacket) : UnixSocketDelivery × Option (List Byte) × Bool :=
  let opened := if s.connected then (s, true) else s.connectWithBackoff clk calls
  if opened.2 then
    let r := opened.1.sendWire clk calls packet
    (r.1, some (wire packet), r.2)
  else (opened.1.countError, none, false)

end UnixSocketDelivery

end Qdgz300.Delivery
