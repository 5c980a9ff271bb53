import GeneralPurposeLibrary.Foundation.CString
import GeneralPurposeLibrary.Foundation.HexText

/-!
# The heartbeat sniffer

`is_heartbeat`, `build_keep_alive_command`, `handle_packet` and the receive loop of
`socket/sniffer.c`, and `alive_match` of `socket/sniffer_test.c`. A pointer into a buffer is
the list of the bytes that may be read behind it, and a read or a write outside a buffer
ends the call with a fault. Whether plain `char` is signed is a parameter.
-/

namespace GeneralPurposeLibrary
open CString HexText

inductive SnifferFault where
  | frameBounds
  | cmdBounds
  deriving DecidableEq, Repr

inductive CharSign where
  | signed
  | unsigned
  deriving DecidableEq, Repr

/-- The `int` that an element of a `char` array is promoted to. -/
def CharSign.promote : CharSign → UInt8 → Int32
  | .signed, b => b.toInt8.toInt32
  | .unsigned, b => b.toUInt32.toInt32

def readFrame (ethData : List UInt8) (i : Nat) : Except SnifferFault UInt8 :=
  match ethData[i]? with
  | some b => .ok b
  | none => .error .frameBounds

/-- `eth_data[i] == c && ...`, which stops at the first byte that differs. -/
def bytesEqual (promote : UInt8 → Int32) (ethData : List UInt8) :
    List (Nat × Int32) → Except SnifferFault Bool
  | [] => .ok true
  | (i, c) :: tests => do
    let b ← readFrame ethData i
    if promote b = c then bytesEqual promote ethData tests else return false

def sizeofEthhdr : Nat := 14

/-- The offset of `protocol` in `struct iphdr`. -/
def iphdrProtocol : Nat := 9

def userDataLenTests : List (Nat × Int32) := [(38, 0x00), (39, 0x28)]

def heartbeatMsgTests : List (Nat × Int32) :=
  [(42, 0x66), (43, 0x88), (44, 0x66), (45, 0x88), (47, 0x18), (48, 0x00), (49, 0x08), (54, 0x01)]

/-- The common body of the two matchers. -/
def heartbeatMatch (promote : UInt8 → Int32) (ethData : List UInt8) :
    Except SnifferFault Int := do
  let protocol ← readFrame ethData (sizeofEthhdr + iphdrProtocol)
  if protocol ≠ 17 then return 0
  else if !(← bytesEqual promote ethData userDataLenTests) then return 0
  else if !(← bytesEqual promote ethData heartbeatMsgTests) then return 0
  else return 1

def isHeartbeat (sign : CharSign) (ethData : List UInt8) (_len : Int32) :
    Except SnifferFault Int :=
  heartbeatMatch sign.promote ethData

def aliveMatch (ethData : List UInt8) (_size : Int32) (_data : List UInt8) :
    Except SnifferFault Int :=
  heartbeatMatch CharSign.unsigned.promote ethData

/-- `strcpy(cmd + strlen(cmd), s)`, which is also what `strcat` does. -/
def appendString (cmd s : List UInt8) : Except SnifferFault (List UInt8) :=
  match storeAt cmd (strlen cmd) (s ++ [0]) with
  | some cmd => .ok cmd
  | none => .error .cmdBounds

def keepAliveHeader : List UInt8 := "keep_alive 0 10000 0x".toList.map asciiByte

/-- The body of the loop: `sprintf` of four bytes from index `i` on. -/
def appendFour (sign : CharSign) (ethData cmd : List UInt8) (i : Nat) :
    Except SnifferFault (List UInt8) := do
  let b₀ ← readFrame ethData i
  let b₁ ← readFrame ethData (i + 1)
  let b₂ ← readFrame ethData (i + 2)
  let b₃ ← readFrame ethData (i + 3)
  appendString cmd ([b₀, b₁, b₂, b₃].flatMap fun b => formatHex (sign.promote b).toUInt32)

/-- `for (i = 0; i < copy_len; i += 4)` runs for `i` from 0 to `4 * (count - 1)`. -/
def buildKeepAliveCommand (sign : CharSign) (ethData : List UInt8) (len : Int32)
    (cmd : List UInt8) : Except SnifferFault (Int × List UInt8) := do
  let cmd ← appendString cmd keepAliveHeader
  let copyLen := if len < 116 then len else 116
  let count := (copyLen.toInt.toNat + 3) / 4
  let cmd ← (List.range count).foldlM (fun cmd k => appendFour sign ethData cmd (4 * k)) cmd
  return (0, cmd)

/-- `handle_packet`: the private command that is sent for the frame, if any. -/
def handlePacket (sign : CharSign) (buffer : List UInt8) (size : Int32) :
    Except SnifferFault (Option (List UInt8)) := do
  let matched ← isHeartbeat sign buffer size
  if matched = 0 then return none
  else
    let (_, cmd) ← buildKeepAliveCommand sign buffer size (List.replicate 256 0)
    return some cmd

/-- What `recvfrom` leaves in the buffer: the frame, then the bytes of earlier frames. -/
def receive (buffer frame : List UInt8) : List UInt8 :=
  frame.take buffer.length ++ buffer.drop frame.length

/-- The loop of `main` over the frames received, with the commands it sends. A failed
`recvfrom` leaves the buffer as it is and is skipped. -/
def snifferLoop (sign : CharSign) :
    List UInt8 → List (Option (List UInt8)) → Except SnifferFault (List (Option (List UInt8)))
  | _, [] => .ok []
  | buffer, none :: frames => snifferLoop sign buffer frames
  | buffer, some frame :: frames => do
    let buffer := receive buffer frame
    let sent ← handlePacket sign buffer (Int32.ofNat (min frame.length buffer.length))
    return sent :: (← snifferLoop sign buffer frames)

end GeneralPurposeLibrary
