/-!
# The serial port settings

`get_baudrate`, `set_data_bits`, `set_parity`, `set_stop_bits`, `serial_set_databits` and
`serial_set_conf` of `linux/serial/basic_serial.c`, with the values that the flags have on
Linux. `cfmakeraw`, `cfsetispeed` and `cfsetospeed` are those of the C library.
-/

namespace GeneralPurposeLibrary

namespace Termbits

def cbaud : BitVec 32 := 0x100f
def csize : BitVec 32 := 0x30
def cs5 : BitVec 32 := 0x00
def cs6 : BitVec 32 := 0x10
def cs7 : BitVec 32 := 0x20
def cs8 : BitVec 32 := 0x30
def cstopb : BitVec 32 := 0x40
def parenb : BitVec 32 := 0x100
def parodd : BitVec 32 := 0x200

def ignbrk : BitVec 32 := 0x1
def brkint : BitVec 32 := 0x2
def parmrk : BitVec 32 := 0x8
def inpck : BitVec 32 := 0x10
def istrip : BitVec 32 := 0x20
def inlcr : BitVec 32 := 0x40
def igncr : BitVec 32 := 0x80
def icrnl : BitVec 32 := 0x100
def ixon : BitVec 32 := 0x400

/-- The bit of the C library for an input speed of zero. -/
def ibaud0 : BitVec 32 := 0x80000000

def opost : BitVec 32 := 0x1

def isig : BitVec 32 := 0x1
def icanon : BitVec 32 := 0x2
def echo : BitVec 32 := 0x8
def echonl : BitVec 32 := 0x40
def iexten : BitVec 32 := 0x8000

def vtime : Nat := 5
def vmin : Nat := 6

end Termbits

open Termbits

structure Termios where
  cIflag : BitVec 32
  cOflag : BitVec 32
  cCflag : BitVec 32
  cLflag : BitVec 32
  cCc : Vector UInt8 32
  cIspeed : BitVec 32
  cOspeed : BitVec 32
  deriving DecidableEq

def cfmakeraw (options : Termios) : Termios :=
  { options with
    cIflag := options.cIflag &&&
      ~~~(ignbrk ||| brkint ||| parmrk ||| istrip ||| inlcr ||| igncr ||| icrnl ||| ixon)
    cOflag := options.cOflag &&& ~~~opost
    cLflag := options.cLflag &&& ~~~(echo ||| echonl ||| icanon ||| isig ||| iexten)
    cCflag := (options.cCflag &&& ~~~(csize ||| parenb)) ||| cs8
    cCc := (options.cCc.setIfInBounds vmin 1).setIfInBounds vtime 0 }

def cfsetispeed (options : Termios) (speed : BitVec 32) : Termios :=
  if speed = 0 then { options with cIspeed := speed, cIflag := options.cIflag ||| ibaud0 }
  else
    { options with
      cIspeed := speed
      cIflag := options.cIflag &&& ~~~ibaud0
      cCflag := (options.cCflag &&& ~~~cbaud) ||| speed }

def cfsetospeed (options : Termios) (speed : BitVec 32) : Termios :=
  { options with
    cOspeed := speed
    cCflag := (options.cCflag &&& ~~~cbaud) ||| speed }

/-- Each speed with its `B` constant. -/
def mMapTable : List (Int32 × Int32) :=
  [(115200, 0x1002), (110, 0x3), (134, 0x4), (150, 0x5), (200, 0x6), (300, 0x7), (600, 0x8),
    (1200, 0x9), (1800, 0xa), (2400, 0xb), (4800, 0xc), (9600, 0xd), (19200, 0xe), (38400, 0xf),
    (57600, 0x1001), (230400, 0x1003), (460800, 0x1004)]

def getBaudrate (speed : Int32) : Int32 :=
  match mMapTable.find? fun map => map.1 = speed with
  | some map => map.2
  | none => -1

def setDataBits (options : Termios) (dataBits : Int32) : Termios :=
  if dataBits = 5 then { options with cCflag := options.cCflag ||| cs5 }
  else if dataBits = 6 then { options with cCflag := options.cCflag ||| cs6 }
  else if dataBits = 7 then { options with cCflag := options.cCflag ||| cs7 }
  else { options with cCflag := options.cCflag ||| cs8 }

def setParity (options : Termios) (parity : UInt8) : Termios :=
  match Char.ofUInt8 parity with
  | 'o' | 'O' =>
    { options with
      cCflag := options.cCflag ||| parenb ||| parodd
      cIflag := options.cIflag ||| inpck }
  | 'e' | 'E' =>
    { options with
      cCflag := (options.cCflag ||| parenb) &&& ~~~parodd
      cIflag := options.cIflag ||| inpck }
  | 's' | 'S' =>
    { options with
      cCflag := (options.cCflag &&& ~~~parenb) &&& ~~~cstopb
      cIflag := options.cIflag ||| inpck }
  | _ =>
    { options with
      cCflag := options.cCflag &&& ~~~parenb
      cIflag := options.cIflag &&& ~~~inpck }

def setStopBits (options : Termios) (stopBits : Int32) : Termios :=
  if stopBits = 2 then { options with cCflag := options.cCflag ||| cstopb }
  else { options with cCflag := options.cCflag &&& ~~~cstopb }

/-- What `tcgetattr` and `tcsetattr` return during a call. -/
structure AttrCalls where
  tcgetattr : Int32
  tcsetattr : Int32
  deriving DecidableEq, Repr

/-- The attributes of the port after the call, and its result. -/
def serialSetDatabits (calls : AttrCalls) (port : Termios) (dataBits : Int32) : Termios × Int32 :=
  if calls.tcgetattr ≠ 0 then (port, -1)
  else
    let options := setDataBits port dataBits
    if calls.tcsetattr ≠ 0 then (port, -1) else (options, 0)

def serialSetConf (calls : AttrCalls) (port : Termios) (speed dataBits stopBits : Int32)
    (parity : UInt8) : Termios × Int32 :=
  let baudrate := getBaudrate speed
  if baudrate < 0 then (port, -1)
  else if calls.tcgetattr ≠ 0 then (port, -1)
  else
    let options := cfmakeraw port
    let options := cfsetispeed options baudrate.toBitVec
    let options := cfsetospeed options baudrate.toBitVec
    let options := setDataBits options dataBits
    let options := setStopBits options stopBits
    let options := setParity options parity
    let options :=
      { options with cCc := (options.cCc.setIfInBounds vtime 150).setIfInBounds vmin 0 }
    if calls.tcsetattr ≠ 0 then (port, -1) else (options, 0)

end GeneralPurposeLibrary
