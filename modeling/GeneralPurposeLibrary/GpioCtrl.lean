import GeneralPurposeLibrary.Foundation.CString
import GeneralPurposeLibrary.Foundation.DecimalText
import Mathlib.Logic.Function.Basic

/-!
# Pins under `/sys/class/gpio`

`linux/gpio/gpio_base.c` and `linux/gpio/gpio_ctrl.c` over the files that the kernel keeps for
its pins. `export` and `unexport` take the number of a pin; the folder of an exported pin holds
`value`, and `direction` and `edge` where the pin has them. A write that the kernel refuses
changes nothing, and the code does not look at its result. With `guards` the kernel refuses to
make an output of a pin that is armed for interrupts, and to arm an output; older kernels do
not. `history` is a ghost member with every pin that was written to, as the write left it.

`line` is the level that the outside applies to the pins; an input reads as that.
-/

namespace GeneralPurposeLibrary
open CString DecimalText

inductive PinDirection where
  | input
  | output
  deriving DecidableEq, Repr

inductive PinEdge where
  | none
  | rising
  | falling
  | both
  deriving DecidableEq, Repr

def PinDirection.text : PinDirection → List UInt8
  | .input => ascii "in"
  | .output => ascii "out"

def PinEdge.text : PinEdge → List UInt8
  | .none => ascii "none"
  | .rising => ascii "rising"
  | .falling => ascii "falling"
  | .both => ascii "both"

structure GpioPin where
  exported : Bool
  hasDirection : Bool
  hasEdge : Bool
  direction : PinDirection
  edge : PinEdge
  driven : Bool
  deriving DecidableEq, Repr

structure GpioSysfs where
  pins : ℕ → Option GpioPin
  history : List (ℕ × GpioPin)

inductive GpioFile where
  | exportFile
  | unexportFile
  | folder (pin : ℕ)
  | direction (pin : ℕ)
  | edge (pin : ℕ)
  | value (pin : ℕ)
  deriving DecidableEq, Repr

def gpioBaseDir : List UInt8 := ascii "/sys/class/gpio"

/-! ### The kernel -/

/-- The pin whose folder has this number as its name. -/
def pinOfName (name : List UInt8) : Option ℕ :=
  match scanNat name with
  | some (pin, []) => if natText pin = name then some pin else none
  | _ => none

/-- The file with this name in the folder of a pin. -/
def pinFile (pin : ℕ) (name : List UInt8) : Option GpioFile :=
  if name = [] then some (.folder pin)
  else if name = ascii "/direction" then some (.direction pin)
  else if name = ascii "/edge" then some (.edge pin)
  else if name = ascii "/value" then some (.value pin)
  else none

def resolve (path : List UInt8) : Option GpioFile :=
  if path = gpioBaseDir ++ ascii "/export" then some .exportFile
  else if path = gpioBaseDir ++ ascii "/unexport" then some .unexportFile
  else
    let folders := gpioBaseDir ++ ascii "/gpio"
    if path.take folders.length = folders then
      let rest := path.drop folders.length
      let name := rest.takeWhile fun b => decide (b ≠ 47)
      match pinOfName name with
      | none => none
      | some pin => pinFile pin (rest.drop name.length)
    else none

namespace GpioSysfs

variable (sys : GpioSysfs)

def has : GpioFile → Bool
  | .exportFile => true
  | .unexportFile => true
  | .folder pin => (sys.pins pin).any fun p => p.exported
  | .direction pin => (sys.pins pin).any fun p => p.exported && p.hasDirection
  | .edge pin => (sys.pins pin).any fun p => p.exported && p.hasEdge
  | .value pin => (sys.pins pin).any fun p => p.exported

/-- `open(path, flags)` of a file, or nothing if it fails. -/
def openFile (path : List UInt8) : Option GpioFile := (resolve path).filter sys.has

/-- `access(path, mode)`; a mode with other bits than those for reading, writing and executing
is refused. -/
def access (path : List UInt8) (mode : UInt32) : Int32 :=
  if mode &&& 0xfffffff8 ≠ 0 then -1
  else if (sys.openFile path).isSome then 0
  else -1

def setPin (pin : ℕ) (p : GpioPin) : GpioSysfs :=
  { pins := Function.update sys.pins pin (some p)
    history := sys.history ++ [(pin, p)] }

end GpioSysfs

/-- The number that a text as `%d` writes it stands for. -/
def kstrtol (bytes : List UInt8) : Option ℤ :=
  match scanInt bytes with
  | some (z, []) => some z
  | _ => none

namespace GpioPin

variable (guards : Bool) (p : GpioPin)

def storeDirection (bytes : List UInt8) : Option GpioPin :=
  if bytes = PinDirection.text .input then some { p with direction := .input }
  else if bytes = PinDirection.text .output then
    if guards ∧ p.edge ≠ .none then none
    else some { p with direction := .output, driven := false }
  else none

def storeEdge (bytes : List UInt8) : Option GpioPin :=
  match [PinEdge.none, .rising, .falling, .both].find? fun e => decide (bytes = e.text) with
  | none => none
  | some edge =>
    if guards ∧ p.direction = .output ∧ edge ≠ .none then none
    else some { p with edge := edge }

def storeValue (bytes : List UInt8) : Option GpioPin :=
  match p.direction with
  | .input => none
  | .output => (kstrtol bytes).map fun (z : ℤ) => { p with driven := decide (z ≠ 0) }

def storeExport : Option GpioPin :=
  if p.exported then none else some { p with exported := true, edge := .none }

def storeUnexport : Option GpioPin :=
  if p.exported then some { p with exported := false, edge := .none } else none

end GpioPin

namespace GpioSysfs

variable (sys : GpioSysfs)

/-- A pin with the number, changed unless the kernel refuses. -/
def change (pin : ℕ) (store : GpioPin → Option GpioPin) : GpioSysfs :=
  match (sys.pins pin).bind store with
  | none => sys
  | some p => sys.setPin pin p

/-- The pin that a number written to `export` or `unexport` names. -/
def changeNumbered (bytes : List UInt8) (store : GpioPin → Option GpioPin) : GpioSysfs :=
  match kstrtol bytes with
  | some (.ofNat pin) => sys.change pin store
  | _ => sys

/-- `write(fd, bytes, len)`. -/
def write (guards : Bool) (bytes : List UInt8) : GpioFile → GpioSysfs
  | .exportFile => sys.changeNumbered bytes GpioPin.storeExport
  | .unexportFile => sys.changeNumbered bytes GpioPin.storeUnexport
  | .folder _ => sys
  | .direction pin => sys.change pin fun p => p.storeDirection guards bytes
  | .edge pin => sys.change pin fun p => p.storeEdge guards bytes
  | .value pin => sys.change pin fun p => p.storeValue bytes

/-- What `read(fd, ...)` delivers. -/
def read (line : ℕ → Bool) : GpioFile → List UInt8
  | .direction pin => match sys.pins pin with
    | none => []
    | some p => p.direction.text ++ [10]
  | .edge pin => match sys.pins pin with
    | none => []
    | some p => p.edge.text ++ [10]
  | .value pin => match sys.pins pin with
    | none => []
    | some p =>
      let level := match p.direction with
        | .input => line pin
        | .output => p.driven
      natText level.toNat ++ [10]
  | _ => []

end GpioSysfs

/-! ### gpio_base.c -/

def gpioBaseRetOk : Int32 := 1

def gpioBaseRetFail : Int32 := -1

def gpioDirInput : UInt32 := 0

def gpioDirOutput : UInt32 := 1

def gpioDirButt : UInt32 := 2

def gpioEdgeNone : UInt32 := 0

def gpioEdgeRising : UInt32 := 1

def gpioEdgeFalling : UInt32 := 2

def gpioEdgeBoth : UInt32 := 3

def gpioEdgeButt : UInt32 := 4

/-- `char str[64]` after `snprintf(str, sizeof(str), ...)` of a text into zeros. -/
def snprintfStr (s : List UInt8) : List UInt8 :=
  s.take 63 ++ List.replicate (64 - (s.take 63).length) 0

def exportPath : List UInt8 := gpioBaseDir ++ ascii "/export"

def unexportPath : List UInt8 := gpioBaseDir ++ ascii "/unexport"

/-- The text of `"%s/gpio%d"`, followed by the name of a file or by nothing. -/
def pinPath (ngpio : Int32) (name : List UInt8) : List UInt8 :=
  gpioBaseDir ++ ascii "/gpio" ++ intText ngpio.toInt ++ name

/-- `strncmp(a, b, n) == 0`. -/
def strncmpEq (a b : List UInt8) (n : UInt64) : Bool :=
  decide ((text a).take n.toNat = (text b).take n.toNat)

/-- The conversion of `len - 1` to `size_t`. -/
def lenLessOne (len : ℕ) : UInt64 := UInt64.ofNat len - 1

section Calls

variable (guards : Bool) (line : ℕ → Bool) (sys : GpioSysfs)

/-- The file with this path is opened, written to and closed. -/
def storeFile (path out : List UInt8) : Int32 × GpioSysfs :=
  match sys.openFile (text (snprintfStr path)) with
  | none => (gpioBaseRetFail, sys)
  | some file => (gpioBaseRetOk, sys.write guards ((snprintfStr out).take out.length) file)

/-- The file with this path is opened, read into zeros and closed; `str` and the length. -/
def loadFile (path : List UInt8) : Option (List UInt8 × ℕ) :=
  match sys.openFile (text (snprintfStr path)) with
  | none => none
  | some file =>
    let bytes := (sys.read line file).take 64
    some (bytes ++ List.replicate (64 - bytes.length) 0, bytes.length)

def gpioBaseExport (ngpio : Int32) : Int32 × GpioSysfs :=
  storeFile guards sys exportPath (intText ngpio.toInt)

def gpioBaseUnexport (ngpio : Int32) : Int32 × GpioSysfs :=
  storeFile guards sys unexportPath (intText ngpio.toInt)

def gpioBaseIsExist (ngpio : Int32) : Int32 :=
  if 0 = sys.access (text (snprintfStr (pinPath ngpio []))) 0o666 then 1 else 0

def gpioBaseSetDirection (ngpio : Int32) (dir : UInt32) : Int32 × GpioSysfs :=
  if dir ≥ gpioDirButt then (gpioBaseRetFail, sys)
  else
    let out :=
      if dir = gpioDirInput then ascii "in"
      else if dir = gpioDirOutput then ascii "out"
      else []
    storeFile guards sys (pinPath ngpio (ascii "/direction")) out

def gpioBaseGetDirection (ngpio : Int32) : UInt32 :=
  match loadFile line sys (pinPath ngpio (ascii "/direction")) with
  | none => gpioDirButt
  | some (str, len) =>
    if strncmpEq str (ascii "in") (lenLessOne len) then gpioDirInput
    else if strncmpEq str (ascii "out") (lenLessOne len) then gpioDirOutput
    else gpioDirButt

def gpioBaseSetEdge (ngpio : Int32) (edge : UInt32) : Int32 × GpioSysfs :=
  if edge ≥ gpioEdgeButt then (gpioBaseRetFail, sys)
  else
    let out :=
      if edge = gpioEdgeNone then ascii "none"
      else if edge = gpioEdgeRising then ascii "rising"
      else if edge = gpioEdgeFalling then ascii "falling"
      else if edge = gpioEdgeBoth then ascii "both"
      else []
    storeFile guards sys (pinPath ngpio (ascii "/edge")) out

/-- A file that cannot be opened gives `GPIO_BASE_RET_FAIL` as a `gpio_edge_e`. -/
def gpioBaseGetEdge (ngpio : Int32) : UInt32 :=
  match loadFile line sys (pinPath ngpio (ascii "/edge")) with
  | none => gpioBaseRetFail.toUInt32
  | some (str, len) =>
    if strncmpEq str (ascii "none") (lenLessOne len) then gpioEdgeNone
    else if strncmpEq str (ascii "rising") (lenLessOne len) then gpioEdgeRising
    else if strncmpEq str (ascii "falling") (lenLessOne len) then gpioEdgeFalling
    else if strncmpEq str (ascii "both") (lenLessOne len) then gpioEdgeBoth
    else gpioEdgeButt

def gpioBaseSetValue (ngpio value : Int32) : Int32 × GpioSysfs :=
  storeFile guards sys (pinPath ngpio (ascii "/value")) (intText value.toInt)

def gpioBaseGetValue (ngpio : Int32) : Int32 :=
  match loadFile line sys (pinPath ngpio (ascii "/value")) with
  | none => gpioBaseRetFail
  | some (str, _) =>
    match scanInt (text str) with
    | none => 0
    | some (value, _) => Int32.ofInt value

/-! ### gpio_ctrl.c -/

/-- `if (!gpio_base_is_exist(ngpio)) gpio_base_export(ngpio);` -/
def exportIfMissing (ngpio : Int32) : GpioSysfs :=
  if gpioBaseIsExist sys ngpio = 0 then (gpioBaseExport guards sys ngpio).2 else sys

def gpioCtrlSetValue (ngpio value : Int32) : Int32 × GpioSysfs :=
  let sys := exportIfMissing guards sys ngpio
  let sys :=
    if gpioDirInput = gpioBaseGetDirection line sys ngpio then
      let sys :=
        if gpioEdgeNone ≠ gpioBaseGetEdge line sys ngpio then
          (gpioBaseSetEdge guards sys ngpio gpioEdgeNone).2
        else sys
      (gpioBaseSetDirection guards sys ngpio gpioDirOutput).2
    else sys
  (0, (gpioBaseSetValue guards sys ngpio value).2)

def gpioCtrlGetValue (ngpio : Int32) : Int32 × GpioSysfs :=
  let sys := exportIfMissing guards sys ngpio
  (gpioBaseGetValue line sys ngpio, sys)

def gpioCtrlSetEdge (ngpio : Int32) (edge : UInt32) : Int32 × GpioSysfs :=
  let sys := exportIfMissing guards sys ngpio
  let sys :=
    if gpioDirOutput = gpioBaseGetDirection line sys ngpio then
      (gpioBaseSetDirection guards sys ngpio gpioDirInput).2
    else sys
  (0, (gpioBaseSetEdge guards sys ngpio edge).2)

end Calls

inductive GpioCall where
  | setValue (ngpio value : Int32)
  | getValue (ngpio : Int32)
  | setEdge (ngpio : Int32) (edge : UInt32)
  | unexport (ngpio : Int32)
  deriving DecidableEq, Repr

def gpioCall (guards : Bool) (line : ℕ → Bool) (sys : GpioSysfs) : GpioCall → Int32 × GpioSysfs
  | .setValue ngpio value => gpioCtrlSetValue guards line sys ngpio value
  | .getValue ngpio => gpioCtrlGetValue guards line sys ngpio
  | .setEdge ngpio edge => gpioCtrlSetEdge guards line sys ngpio edge
  | .unexport ngpio => gpioBaseUnexport guards sys ngpio

/-- Calls one after the other, each with the levels the outside applies at that time; what
they return and the files at the end. -/
def gpioCalls (guards : Bool) : GpioSysfs → List (GpioCall × (ℕ → Bool)) → List Int32 × GpioSysfs
  | sys, [] => ([], sys)
  | sys, (call, line) :: calls =>
    let (ret, sys) := gpioCall guards line sys call
    let (rets, sys) := gpioCalls guards sys calls
    (ret :: rets, sys)

end GeneralPurposeLibrary
