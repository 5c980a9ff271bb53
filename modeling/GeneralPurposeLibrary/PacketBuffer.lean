import GeneralPurposeLibrary.Foundation.BlockHeap

/-!
# The packet buffer

The reassembly buffer of `linux/utils/src/packet_buffer.c`. The `char *` members point at
the start of a heap block; `none` is `NULL`. A request to the allocator succeeds or fails as
its caller is told: `calloc` by a flag, `realloc` by the bytes found in the part of the new
block that the old one does not cover, with `none` for a failure. A negative size, which C
turns into one that exceeds any memory, fails. The `int` members are integers; they stay
between 0 and the announced lengths as long as no more than `req_len` bytes are read. The
members `handle` and `ops` are reserved and no function looks at them.
-/

namespace GeneralPurposeLibrary

def recvStateInProgress : Int := 0

def recvStateHeaderComplete : Int := 1

def recvStateBodyComplete : Int := 2

inductive BufferState where
  | header
  | body
  | butt
  deriving DecidableEq, Repr

structure PacketBuffer where
  headerLen : Int
  headerBuffer : Option Nat
  bodyLen : Int
  body : Option Nat
  index : Int
  reqLen : Int
  buf : Option Nat
  state : BufferState
  deriving DecidableEq, Repr

/-- The assignments at the end of `packet_buffer_update_body`. -/
def PacketBuffer.expectBody (p : PacketBuffer) (bodyLen : Int) : PacketBuffer :=
  { p with index := 0, reqLen := bodyLen, bodyLen := bodyLen, state := .body }

structure PacketMemory (Addr : Type) where
  heap : BlockHeap UInt8
  packets : Addr → PacketBuffer

def calloc (heap : BlockHeap UInt8) (size : Int) (ok : Bool) : Option Nat × BlockHeap UInt8 :=
  if 0 ≤ size ∧ ok then heap.alloc (List.replicate size.toNat 0) else (none, heap)

def realloc (heap : BlockHeap UInt8) (ptr : Option Nat) (size : Int)
    (fate : Option (Nat → UInt8)) : Option Nat × BlockHeap UInt8 :=
  match fate with
  | none => (none, heap)
  | some fill => if 0 ≤ size then heap.resize ptr size.toNat fill else (none, heap)

section Packet

variable {Addr : Type} [DecidableEq Addr] (m : PacketMemory Addr)

def PacketMemory.setPacket (packet : Addr) (p : PacketBuffer) : PacketMemory Addr :=
  { m with packets := Function.update m.packets packet p }

def PacketMemory.setHeap (heap : BlockHeap UInt8) : PacketMemory Addr := { m with heap := heap }

def packetBufferUpdateHeader (packet : Option Addr) : Int × PacketMemory Addr :=
  match packet with
  | none => (-1, m)
  | some packet =>
    let p := m.packets packet
    let p := { p with index := 0, reqLen := p.headerLen, buf := p.headerBuffer, state := .header }
    (0, m.setPacket packet p)

def packetBufferInit (packet : Addr) (headerLen : Int) (ok : Bool) : Int × PacketMemory Addr :=
  match calloc m.heap headerLen ok with
  | (none, _) => (-1, m)
  | (some header, heap) =>
    let p := m.packets packet
    let p := { p with
      body := none
      bodyLen := 0
      headerLen := headerLen
      headerBuffer := some header }
    packetBufferUpdateHeader ((m.setHeap heap).setPacket packet p) (some packet)

def packetBufferDestroy (packet : Option Addr) : Int × PacketMemory Addr :=
  match packet with
  | none => (0, m)
  | some packet =>
    let p := m.packets packet
    let heap := m.heap.free p.headerBuffer
    let heap := heap.free p.body
    let p := { p with
      headerBuffer := none
      body := none
      headerLen := 0
      bodyLen := 0
      reqLen := 0
      buf := none }
    (0, (m.setHeap heap).setPacket packet p)

def packetBufferUpdateIndex (packet : Option Addr) (len : Int) : Int × PacketMemory Addr :=
  match packet with
  | none => (-1, m)
  | some packet =>
    let p := m.packets packet
    let p := { p with index := p.index + len }
    let p :=
      if p.state = .header then { p with reqLen := p.headerLen - p.index }
      else if p.state = .body then { p with reqLen := p.bodyLen - p.index }
      else p
    if p.reqLen > 0 then (recvStateInProgress, m.setPacket packet p)
    else
      let p := if p.reqLen < 0 then { p with reqLen := 0 } else p
      let ret :=
        if p.state = .body then recvStateBodyComplete
        else if p.state = .header then recvStateHeaderComplete
        else 0
      (ret, m.setPacket packet p)

def packetBufferUpdateBody (packet : Option Addr) (bodyLen : Int)
    (fate : Option (Nat → UInt8)) : Int × PacketMemory Addr :=
  match packet with
  | none => (-1, m)
  | some packet =>
    let p := m.packets packet
    if bodyLen > p.bodyLen then
      match realloc m.heap p.body bodyLen fate with
      | (none, _) => (-1, m)
      | (some ptr, heap) =>
        let p := { p with body := some ptr, buf := some ptr }
        (0, (m.setHeap heap).setPacket packet (p.expectBody bodyLen))
    else (0, m.setPacket packet (p.expectBody bodyLen))

/-- `packet->buf + packet->index`, as the block and the offset in it; `none` is the error
value for a `NULL` packet. -/
def packetBufferGetBuf (packet : Option Addr) : Option (Option Nat × Int) :=
  packet.map fun packet => ((m.packets packet).buf, (m.packets packet).index)

def packetBufferGetLen (packet : Option Addr) : Int :=
  match packet with
  | none => -1
  | some packet => (m.packets packet).index

end Packet

/-- A call on an initialised packet; `updateBody` comes with the fate of its `realloc`. -/
inductive PacketCall where
  | updateIndex (len : Int)
  | updateBody (bodyLen : Int) (fate : Option (Nat → UInt8))
  | updateHeader

section Calls

variable {Addr : Type} [DecidableEq Addr] (packet : Addr)

def PacketMemory.call (m : PacketMemory Addr) : PacketCall → Int × PacketMemory Addr
  | .updateIndex len => packetBufferUpdateIndex m (some packet) len
  | .updateBody bodyLen fate => packetBufferUpdateBody m (some packet) bodyLen fate
  | .updateHeader => packetBufferUpdateHeader m (some packet)

def runPacketCalls (m : PacketMemory Addr) : List PacketCall → PacketMemory Addr
  | [] => m
  | call :: calls => runPacketCalls (m.call packet call).2 calls

end Calls

end GeneralPurposeLibrary
