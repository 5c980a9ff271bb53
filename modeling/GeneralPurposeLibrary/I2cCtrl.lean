import GeneralPurposeLibrary.Foundation.ByteOrder
import GeneralPurposeLibrary.Foundation.CString
import GeneralPurposeLibrary.Foundation.HexText
import Mathlib.Logic.Function.Basic

/-!
# Registers of a device on an I2C bus

`linux/utils/src/i2c_ctrl.c` over the calls of `i2c-dev`. A device is a memory of cells of
`dataWidth` bytes each. A message of `regWidth` bytes selects a cell by its big-endian number,
further `dataWidth` bytes in the same message are stored there, and a read delivers the cell
that was selected last. An open file is a bus with the address of the device that `write`
talks to; the messages of `I2C_RDWR` carry their own address. A pointer is an `Option`, where
`none` is the null pointer.
-/

namespace GeneralPurposeLibrary
open ByteOrder CString HexText

structure I2cDevice (regWidth dataWidth : ℕ) where
  cells : ℕ → Fin dataWidth → UInt8
  selected : ℕ

namespace I2cDevice

variable {regWidth dataWidth : ℕ} (device : I2cDevice regWidth dataWidth)

/-- The value of a cell. -/
def value (register : ℕ) : ℕ := ofBigEndian (List.ofFn (device.cells register))

def receive (bytes : List UInt8) : Option (I2cDevice regWidth dataWidth) :=
  let register := ofBigEndian (bytes.take regWidth)
  if bytes.length = regWidth then some { device with selected := register }
  else if bytes.length = regWidth + dataWidth then
    some
      { cells := Function.update device.cells register fun i => bytes.getD (regWidth + i) 0
        selected := register }
  else none

def deliver (len : ℕ) : Option (List UInt8) :=
  if len = dataWidth then some (List.ofFn (device.cells device.selected)) else none

end I2cDevice

structure I2cFile where
  path : List UInt8
  slave : UInt16
  deriving DecidableEq, Repr

structure I2cBus (regWidth dataWidth : ℕ) where
  files : Int64 → Option I2cFile
  devices : List UInt8 → UInt16 → Option (I2cDevice regWidth dataWidth)

/-- A message with the bytes the kernel copies from its buffer. -/
structure I2cMsg where
  addr : UInt16
  flags : UInt16
  len : UInt16
  buf : List UInt8
  deriving DecidableEq, Repr

def i2cMRd : UInt16 := 0x0001

namespace I2cBus

variable {regWidth dataWidth : ℕ} (bus : I2cBus regWidth dataWidth)

def setFile (fd : Int64) (file : Option I2cFile) : I2cBus regWidth dataWidth :=
  { bus with files := Function.update bus.files fd file }

def setDevice (path : List UInt8) (addr : UInt16) (device : I2cDevice regWidth dataWidth) :
    I2cBus regWidth dataWidth :=
  let onBus := Function.update (bus.devices path) addr (some device)
  { bus with devices := Function.update bus.devices path onBus }

/-- `ioctl(fd, I2C_SLAVE_FORCE, addr)`, which takes addresses of seven bits. -/
def ioctlSlaveForce (fd : Int64) (addr : UInt32) : Option (I2cBus regWidth dataWidth) := do
  let file ← bus.files fd
  if addr ≤ 0x7f then return bus.setFile fd (some { file with slave := addr.toUInt16 })
  else none

/-- `write(fd, buf, count)`; the result is the number of bytes, or nothing if it fails. -/
def write (fd : Int64) (bytes : List UInt8) : Option (ℕ × I2cBus regWidth dataWidth) := do
  let file ← bus.files fd
  let device ← bus.devices file.path file.slave
  let device ← device.receive bytes
  return (bytes.length, bus.setDevice file.path file.slave device)

/-- One message; the result is what a read delivers. -/
def transferOne (path : List UInt8) (msg : I2cMsg) :
    Option (List UInt8 × I2cBus regWidth dataWidth) := do
  let device ← bus.devices path msg.addr
  if msg.flags &&& i2cMRd ≠ 0 then
    let bytes ← device.deliver msg.len.toNat
    return (bytes, bus)
  else
    let device ← device.receive (msg.buf.take msg.len.toNat)
    return ([], bus.setDevice path msg.addr device)

/-- `ioctl(fd, I2C_RDWR, &rdwr)` for two messages; the result is the number of messages and
what the second one delivers. -/
def ioctlRdwr (fd : Int64) (msg₀ msg₁ : I2cMsg) :
    Option (ℕ × List UInt8 × I2cBus regWidth dataWidth) := do
  let file ← bus.files fd
  let (_, bus) ← bus.transferOne file.path msg₀
  let (bytes, bus) ← bus.transferOne file.path msg₁
  return (2, bytes, bus)

end I2cBus

structure I2cCtrl where
  i2cNum : UInt32
  devAddr : UInt32
  regWidth : UInt32
  dataWidth : UInt32
  priv : Int64
  deriving DecidableEq, Repr

def i2cInitCtrl (ctrl : Option I2cCtrl) (i2cNum devAddr regWidth dataWidth : UInt32) :
    Int32 × Option I2cCtrl :=
  match ctrl with
  | none => (-1, none)
  | some ctrl => (0, some ⟨i2cNum, devAddr >>> 1, regWidth, dataWidth, ctrl.priv⟩)

/-- The text of `"/dev/i2c-%u"`. -/
def i2cPath (i2cNum : UInt32) : List UInt8 :=
  "/dev/i2c-".toList.map asciiByte ++ (Nat.toDigits 10 i2cNum.toNat).map asciiByte

/-- `sprintf(file_name, "/dev/i2c-%u", i2c_num)` into 16 bytes with arbitrary contents. -/
def i2cFileName (fileName : Vector UInt8 16) (i2cNum : UInt32) : Option (List UInt8) :=
  storeAt fileName.toList 0 (i2cPath i2cNum ++ [0])

section Calls

variable {regWidth dataWidth : ℕ} (bus : I2cBus regWidth dataWidth)

/-- `fd` is what `open` returns. A file name that does not fit has no result. -/
def i2cOpen (fileName : Vector UInt8 16) (fd : Int64) (ctrl : Option I2cCtrl) :
    Option (Int32 × Option I2cCtrl × I2cBus regWidth dataWidth) :=
  match ctrl with
  | none => some (-1, none, bus)
  | some ctrl => do
    let fileName ← i2cFileName fileName ctrl.i2cNum
    if fd < 0 then return (-1, some ctrl, bus)
    else
      let opened := bus.setFile fd (some ⟨text fileName, 0⟩)
      match opened.ioctlSlaveForce fd ctrl.devAddr with
      | none => return (-1, some ctrl, opened.setFile fd none)
      | some bus => return (0, some { ctrl with priv := fd }, bus)

/-- `buf` in `i2c_read` before the transfer. -/
def addressBuf (regWidth regAddr : UInt32) : List UInt8 :=
  let buf : List UInt8 := [0, 0, 0, 0]
  if 2 = regWidth then
    (buf.set 0 ((regAddr >>> 8) &&& 0xff).toUInt8).set 1 (regAddr &&& 0xff).toUInt8
  else buf.set 0 (regAddr &&& 0xff).toUInt8

/-- What `i2c_read` makes of `buf` after the transfer. -/
def dataOfBuf (dataWidth : UInt32) (buf : List UInt8) : UInt32 :=
  if dataWidth = 2 then (buf.getD 1 0).toUInt32 ||| ((buf.getD 0 0).toUInt32 <<< 8)
  else (buf.getD 0 0).toUInt32

/-- The value returned, what is stored in `*data` and the bus. -/
def i2cRead (ctrl : Option I2cCtrl) (regAddr : UInt32) :
    Int32 × Option UInt32 × I2cBus regWidth dataWidth :=
  match ctrl with
  | none => (-1, none, bus)
  | some ctrl =>
    let buf := addressBuf ctrl.regWidth regAddr
    let msg₀ : I2cMsg := ⟨ctrl.devAddr.toUInt16, 0, ctrl.regWidth.toUInt16, buf⟩
    let msg₁ : I2cMsg := ⟨ctrl.devAddr.toUInt16, 0 ||| i2cMRd, ctrl.dataWidth.toUInt16, buf⟩
    match bus.ioctlRdwr ctrl.priv msg₀ msg₁ with
    | none => (-1, none, bus)
    | some (ret, bytes, bus) =>
      if ret ≠ 2 then (-1, none, bus)
      else (0, some (dataOfBuf ctrl.dataWidth (bytes ++ buf.drop bytes.length)), bus)

/-- `buf[index] = b; index++;` -/
def putByte (p : List UInt8 × ℕ) (b : UInt8) : List UInt8 × ℕ := (p.1.set p.2 b, p.2 + 1)

/-- The branch on a width in `i2c_write`. -/
def putValue (width value : UInt32) (p : List UInt8 × ℕ) : List UInt8 × ℕ :=
  if 2 = width then
    putByte (putByte p ((value >>> 8) &&& 0xff).toUInt8) (value &&& 0xff).toUInt8
  else putByte p (value &&& 0xff).toUInt8

def i2cWrite (ctrl : Option I2cCtrl) (regAddr data : UInt32) :
    Int32 × I2cBus regWidth dataWidth :=
  match ctrl with
  | none => (-1, bus)
  | some ctrl =>
    let p := putValue ctrl.regWidth regAddr ([0, 0, 0, 0], 0)
    let (buf, index) := putValue ctrl.dataWidth data p
    match bus.write ctrl.priv (buf.take index) with
    | none => (-1, bus)
    | some (_, bus) => (0, bus)

inductive I2cCall where
  | read (regAddr : UInt32)
  | write (regAddr data : UInt32)
  deriving DecidableEq, Repr

/-- One call that returns 0. -/
def i2cStep (ctrl : I2cCtrl) (bus : I2cBus regWidth dataWidth) :
    I2cCall → Option (I2cBus regWidth dataWidth)
  | .read regAddr =>
    let (ret, _, bus) := i2cRead bus (some ctrl) regAddr
    if ret = 0 then some bus else none
  | .write regAddr data =>
    let (ret, bus) := i2cWrite bus (some ctrl) regAddr data
    if ret = 0 then some bus else none

def i2cChangeDevAddr (ctrl : Option I2cCtrl) (devAddr : UInt32) :
    Int32 × Option I2cCtrl × I2cBus regWidth dataWidth :=
  match ctrl with
  | none => (-1, none, bus)
  | some ctrl =>
    match bus.ioctlSlaveForce ctrl.priv (devAddr >>> 1) with
    | none => (-1, some ctrl, bus)
    | some bus => (0, some { ctrl with devAddr := devAddr >>> 1 }, bus)

def i2cClose (ctrl : Option I2cCtrl) : Int32 × I2cBus regWidth dataWidth :=
  match ctrl with
  | none => (-1, bus)
  | some ctrl =>
    match bus.files ctrl.priv with
    | none => (-1, bus)
    | some _ => (0, bus.setFile ctrl.priv none)

end Calls

/-! ### Several handles -/

inductive HandlePhase where
  | raw
  | initialised
  | opened
  deriving DecidableEq, Repr

/-- Any number of handles for devices with these widths. `phase` is a ghost member that says
which calls on a handle are in order. -/
structure I2cSystem (Handle : Type) (regWidth dataWidth : UInt32) where
  bus : I2cBus regWidth.toNat dataWidth.toNat
  ctrl : Handle → I2cCtrl
  phase : Handle → HandlePhase

inductive I2cSystemCall (Handle : Type) where
  | initCtrl (h : Handle) (i2cNum devAddr : UInt32)
  /-- With what is in `file_name` before the call, and what `open` returns. -/
  | openCtrl (h : Handle) (fileName : Vector UInt8 16) (fd : Int64)
  | changeDevAddr (h : Handle) (devAddr : UInt32)
  | close (h : Handle)
  | read (h : Handle) (regAddr : UInt32)
  | write (h : Handle) (regAddr data : UInt32)
  deriving DecidableEq

section System

variable {Handle : Type} [DecidableEq Handle] {regWidth dataWidth : UInt32}
variable (sys : I2cSystem Handle regWidth dataWidth)

/-- A call on a handle in the phase it is made for; its result, what it stores in `*data` and
the system behind it. `open` returns -1 or a descriptor that is not in use. -/
def i2cSystemCall :
    I2cSystemCall Handle → Option (Int32 × Option UInt32 × I2cSystem Handle regWidth dataWidth)
  | .initCtrl h i2cNum devAddr =>
    if sys.phase h = .opened then none
    else
      let (ret, ctrl) := i2cInitCtrl (some (sys.ctrl h)) i2cNum devAddr regWidth dataWidth
      some (ret, none, { sys with
        ctrl := Function.update sys.ctrl h (ctrl.getD (sys.ctrl h))
        phase := Function.update sys.phase h .initialised })
  | .openCtrl h fileName fd =>
    if sys.phase h = .initialised ∧ (fd < 0 ∨ sys.bus.files fd = none) then do
      let (ret, ctrl, bus) ← i2cOpen sys.bus fileName fd (some (sys.ctrl h))
      some (ret, none, {
        bus := bus
        ctrl := Function.update sys.ctrl h (ctrl.getD (sys.ctrl h))
        phase := Function.update sys.phase h (if ret = 0 then .opened else .initialised) })
    else none
  | .changeDevAddr h devAddr =>
    if sys.phase h = .opened then
      let (ret, ctrl, bus) := i2cChangeDevAddr sys.bus (some (sys.ctrl h)) devAddr
      some (ret, none, { sys with
        bus := bus
        ctrl := Function.update sys.ctrl h (ctrl.getD (sys.ctrl h)) })
    else none
  | .close h =>
    if sys.phase h = .opened then
      let (ret, bus) := i2cClose sys.bus (some (sys.ctrl h))
      some (ret, none, { sys with
        bus := bus
        phase := Function.update sys.phase h .initialised })
    else none
  | .read h regAddr =>
    if sys.phase h = .opened then
      let (ret, data, bus) := i2cRead sys.bus (some (sys.ctrl h)) regAddr
      some (ret, data, { sys with bus := bus })
    else none
  | .write h regAddr data =>
    if sys.phase h = .opened then
      let (ret, bus) := i2cWrite sys.bus (some (sys.ctrl h)) regAddr data
      some (ret, none, { sys with bus := bus })
    else none

/-- Calls one after the other, with what they return and store. -/
def i2cSystemCalls :
    I2cSystem Handle regWidth dataWidth → List (I2cSystemCall Handle) →
      Option (List (Int32 × Option UInt32) × I2cSystem Handle regWidth dataWidth)
  | sys, [] => some ([], sys)
  | sys, call :: calls => do
    let (ret, data, sys) ← i2cSystemCall sys call
    let (replies, sys) ← i2cSystemCalls sys calls
    some ((ret, data) :: replies, sys)

end System

end GeneralPurposeLibrary
