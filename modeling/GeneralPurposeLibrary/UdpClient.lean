import GeneralPurposeLibrary.Foundation.BoundedRetry

/-!
# The UDP client

`udp_client_send` and `udp_client_recv` of `socket/udp_client.c`. The network answers the
`n`-th `sendto` or `recvfrom` with the `n`-th of an arbitrary sequence of outcomes and keeps
the calls made so far.
-/

namespace GeneralPurposeLibrary
open BoundedRetry

def eagain : Int32 := 11

structure SockAddrIn where
  sinFamily : UInt16
  sinPort : UInt16
  sinAddr : UInt32
  deriving DecidableEq, Repr

structure SocketBase where
  fd : Int32
  sin : SockAddrIn
  deriving DecidableEq, Repr

/-- What one system call did: it moved a datagram, or it failed with `errno`. -/
inductive CallOutcome (μ : Type) where
  | moved (m : μ)
  | failed (errno : Int32)
  deriving DecidableEq, Repr

/-- The value of the call: the byte count, as the `int` it is assigned to, or -1. -/
def CallOutcome.value {μ : Type} (count : μ → Nat) : CallOutcome μ → Int32
  | .moved m => Int32.ofNat (count m)
  | .failed _ => -1

structure SendRequest where
  fd : Int32
  buf : List UInt8
  size : Int32
  addr : SockAddrIn
  deriving DecidableEq, Repr

structure Datagram where
  data : List UInt8
  sender : SockAddrIn
  deriving DecidableEq, Repr

/-- The outcomes of all calls, and the requests made so far with their outcomes. -/
structure Network (ρ μ : Type) where
  outcomes : Nat → CallOutcome μ
  calls : List (ρ × CallOutcome μ)

namespace Network

variable {ρ μ : Type}

def next (net : Network ρ μ) : CallOutcome μ := net.outcomes net.calls.length

def answer (net : Network ρ μ) (request : ρ) : Network ρ μ :=
  { net with calls := net.calls ++ [(request, net.next)] }

end Network

/-- `sendto`; the outcome of a successful call is the number of bytes sent. -/
def sendto (request : SendRequest) (net : Network SendRequest Nat) :
    Network SendRequest Nat × Int32 :=
  (net.answer request, net.next.value id)

def udpClientSend (sktBase : Option SocketBase) (buf : List UInt8) (size : Int32)
    (net : Network SendRequest Nat) : Network SendRequest Nat × Int32 :=
  match sktBase with
  | none => (net, -1)
  | some sktBase => retry (· = eagain) (sendto ⟨sktBase.fd, buf, size, sktBase.sin⟩) 3 net

structure RecvRequest where
  fd : Int32
  size : Int32
  deriving DecidableEq, Repr

/-- What `udp_client_recv` may change: its buffer, the address of the peer, the network. -/
structure RecvState where
  buf : List UInt8
  sin : SockAddrIn
  net : Network RecvRequest Datagram

/-- The bytes of a datagram that `recvfrom` stores: at most `size` of them, as a `size_t`. -/
def Datagram.delivered (size : Int32) (d : Datagram) : List UInt8 :=
  d.data.take size.toInt64.toUInt64.toNat

def recvfrom (fd size : Int32) (s : RecvState) : RecvState × Int32 :=
  let net := s.net.answer ⟨fd, size⟩
  match s.net.next with
  | .moved d =>
    let bytes := d.delivered size
    (⟨bytes ++ s.buf.drop bytes.length, d.sender, net⟩, Int32.ofNat bytes.length)
  | .failed _ => (⟨s.buf, s.sin, net⟩, -1)

def udpClientRecv (sktBase : Option SocketBase) (buf : List UInt8) (size : Int32)
    (net : Network RecvRequest Datagram) :
    (Option SocketBase × List UInt8 × Network RecvRequest Datagram) × Int32 :=
  match sktBase with
  | none => ((none, buf, net), -1)
  | some sktBase =>
    let (s, ret) := retry (· = eagain) (recvfrom sktBase.fd size) 3 ⟨buf, sktBase.sin, net⟩
    ((some { sktBase with sin := s.sin }, s.buf, s.net), ret)

end GeneralPurposeLibrary
