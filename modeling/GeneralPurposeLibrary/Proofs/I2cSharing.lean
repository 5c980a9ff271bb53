import GeneralPurposeLibrary.Foundation.DecimalText
import GeneralPurposeLibrary.Proofs.I2cRoundTrip

/-!
# Several handles on one register file

A read goes to the device that the handle names, while a write goes to the device that the open
file was told. This file shows that the two never part: along all calls on any number of handles,
with devices changed in between and with failed calls, every handle acts as a view of one
register file that is addressed by bus number, device address and register.
-/

namespace GeneralPurposeLibrary.Proofs
open ByteOrder

/-- The registers of all devices, by bus number and address, and the device that each handle
names. -/
@[ext]
structure RegisterFile (Handle : Type) where
  named : Handle → UInt32 × UInt32
  phase : Handle → HandlePhase
  cells : UInt32 → UInt16 → Option (ℕ → ℕ)

section Spec

variable {Handle : Type} (regWidth dataWidth : UInt32)

/-- The registers of the device that a handle names. -/
def RegisterFile.of (file : RegisterFile Handle) (h : Handle) : Option (ℕ → ℕ) :=
  file.cells (file.named h).1 (file.named h).2.toUInt16

variable [DecidableEq Handle]

def RegisterFile.setCells (file : RegisterFile Handle) (h : Handle) (registers : ℕ → ℕ) :
    RegisterFile Handle :=
  let onBus := Function.update (file.cells (file.named h).1) (file.named h).2.toUInt16
    (some registers)
  { file with cells := Function.update file.cells (file.named h).1 onBus }

def RegisterFile.rename (file : RegisterFile Handle) (h : Handle) (i2cNum devAddr : UInt32) :
    RegisterFile Handle :=
  { file with named := Function.update file.named h (i2cNum, devAddr) }

def RegisterFile.setPhase (file : RegisterFile Handle) (h : Handle) (phase : HandlePhase) :
    RegisterFile Handle :=
  { file with phase := Function.update file.phase h phase }

/-- What a call does to the register file, and what it returns and stores. -/
def registerCall (file : RegisterFile Handle) :
    I2cSystemCall Handle → Option ((Int32 × Option UInt32) × RegisterFile Handle)
  | .initCtrl h i2cNum devAddr =>
    if file.phase h = .opened then none
    else some ((0, none), (file.rename h i2cNum (devAddr >>> 1)).setPhase h .initialised)
  | .openCtrl h _ fd =>
    if file.phase h = .initialised then
      if fd < 0 ∨ ¬ (file.named h).2 ≤ 0x7f then some ((-1, none), file)
      else some ((0, none), file.setPhase h .opened)
    else none
  | .changeDevAddr h devAddr =>
    if file.phase h = .opened then
      if devAddr >>> 1 ≤ 0x7f then
        some ((0, none), file.rename h (file.named h).1 (devAddr >>> 1))
      else some ((-1, none), file)
    else none
  | .close h =>
    if file.phase h = .opened then some ((0, none), file.setPhase h .initialised) else none
  | .read h regAddr =>
    if file.phase h = .opened then
      match file.of h with
      | none => some ((-1, none), file)
      | some registers =>
        let value := registers (regAddr.toNat % 256 ^ regWidth.toNat)
        some ((0, some (UInt32.ofNat value)), file)
    else none
  | .write h regAddr data =>
    if file.phase h = .opened then
      match file.of h with
      | none => some ((-1, none), file)
      | some registers =>
        let registers := Function.update registers (regAddr.toNat % 256 ^ regWidth.toNat)
          (data.toNat % 256 ^ dataWidth.toNat)
        some ((0, none), file.setCells h registers)
    else none

def registerCalls : RegisterFile Handle → List (I2cSystemCall Handle) →
    Option (List (Int32 × Option UInt32) × RegisterFile Handle)
  | file, [] => some ([], file)
  | file, call :: calls => do
    let (reply, file) ← registerCall regWidth dataWidth file call
    let (replies, file) ← registerCalls file calls
    some (reply :: replies, file)

end Spec

section Abstraction

variable {Handle : Type} {regWidth dataWidth : UInt32}

/-- The register file that the devices of a system form. -/
def registerFile (sys : I2cSystem Handle regWidth dataWidth) : RegisterFile Handle where
  named h := ((sys.ctrl h).i2cNum, (sys.ctrl h).devAddr)
  phase := sys.phase
  cells i2cNum addr := (sys.bus.devices (i2cPath i2cNum) addr).map I2cDevice.value

/-- The file of an open handle talks to the device that the handle names, and no two open
handles share a file. -/
structure Attached (sys : I2cSystem Handle regWidth dataWidth) : Prop where
  widths : ∀ h, sys.phase h ≠ .raw →
    (sys.ctrl h).regWidth = regWidth ∧ (sys.ctrl h).dataWidth = dataWidth
  file : ∀ h, sys.phase h = .opened → sys.bus.files (sys.ctrl h).priv =
    some ⟨i2cPath (sys.ctrl h).i2cNum, (sys.ctrl h).devAddr.toUInt16⟩
  distinct : ∀ h h', sys.phase h = .opened → sys.phase h' = .opened →
    (sys.ctrl h).priv = (sys.ctrl h').priv → h = h'

lemma i2cPath_injective : Function.Injective i2cPath := by
  intro a b hab
  have hdigits : DecimalText.natText a.toNat = DecimalText.natText b.toNat :=
    List.append_cancel_left hab
  have hread : ∀ n, DecimalText.scanNat (DecimalText.natText n ++ []) = some (n, []) :=
    fun n => DecimalText.scanNat_natText n (fun _ h => absurd h (by simp))
  have hsame := (hread a.toNat).symm
  rw [hdigits, hread b.toNat] at hsame
  exact UInt32.toNat_inj.mp (Prod.mk.inj (Option.some.inj hsame)).1

lemma cells_setDevice (bus : I2cBus regWidth.toNat dataWidth.toNat) (i2cNum : UInt32)
    (addr : UInt16) (device : I2cDevice regWidth.toNat dataWidth.toNat) :
    (fun num a => ((bus.setDevice (i2cPath i2cNum) addr device).devices (i2cPath num) a).map
        I2cDevice.value) =
      Function.update (fun num a => (bus.devices (i2cPath num) a).map I2cDevice.value) i2cNum
        (Function.update (fun a => (bus.devices (i2cPath i2cNum) a).map I2cDevice.value) addr
          (some device.value)) := by
  funext num a
  unfold I2cBus.setDevice
  by_cases hnum : num = i2cNum
  · subst hnum
    rw [Function.update_self]
    dsimp only
    rw [Function.update_self]
    by_cases ha : a = addr
    · subst ha
      rw [Function.update_self, Function.update_self, Option.map_some]
    · rw [Function.update_of_ne ha, Function.update_of_ne ha]
  · have hpath : i2cPath num ≠ i2cPath i2cNum := fun h => hnum (i2cPath_injective h)
    rw [Function.update_of_ne hnum]
    dsimp only
    rw [Function.update_of_ne hpath]

end Abstraction

section Devices

variable {regWidth dataWidth : UInt32} {bus : I2cBus regWidth.toNat dataWidth.toNat}
variable {ctrl : I2cCtrl} {path : List UInt8}

lemma i2cRead_missing (hfile : bus.files ctrl.priv = some ⟨path, ctrl.devAddr.toUInt16⟩)
    (hdevice : bus.devices path ctrl.devAddr.toUInt16 = none) (regAddr : UInt32) :
    i2cRead bus (some ctrl) regAddr = (-1, none, bus) := by
  simp [i2cRead, I2cBus.ioctlRdwr, I2cBus.transferOne, hfile, hdevice]

lemma i2cWrite_missing (hfile : bus.files ctrl.priv = some ⟨path, ctrl.devAddr.toUInt16⟩)
    (hdevice : bus.devices path ctrl.devAddr.toUInt16 = none) (regAddr data : UInt32) :
    i2cWrite bus (some ctrl) regAddr data = (-1, bus) := by
  simp [i2cWrite, I2cBus.write, hfile, hdevice]

variable (hreg : KnownWidth regWidth) (hdata : KnownWidth dataWidth)
variable (hwidths : ctrl.regWidth = regWidth ∧ ctrl.dataWidth = dataWidth)
variable (hfile : bus.files ctrl.priv = some ⟨path, ctrl.devAddr.toUInt16⟩)
variable {device : I2cDevice regWidth.toNat dataWidth.toNat}
variable (hdevice : bus.devices path ctrl.devAddr.toUInt16 = some device)

include hreg hdata hwidths hfile hdevice

lemma i2cRead_device (regAddr : UInt32) :
    i2cRead bus (some ctrl) regAddr =
      (0, some (UInt32.ofNat (device.value (regAddr.toNat % 256 ^ regWidth.toNat))),
        bus.setDevice path ctrl.devAddr.toUInt16
          { device with selected := regAddr.toNat % 256 ^ regWidth.toNat }) := by
  obtain ⟨rfl, rfl⟩ := hwidths
  have hconnected : Connected ctrl path bus device := ⟨hfile, hdevice⟩
  have hvalue := toNat_dataOfBuf hdata
    (List.length_ofFn (f := device.cells (regAddr.toNat % 256 ^ ctrl.regWidth.toNat)))
    ((addressBuf ctrl.regWidth regAddr).drop
      (List.ofFn (device.cells (regAddr.toNat % 256 ^ ctrl.regWidth.toNat))).length)
  rw [i2cRead_of_ioctl (ioctlRdwr_eq hreg hdata hconnected regAddr), I2cDevice.value, ← hvalue,
    UInt32.ofNat_toNat]

lemma exists_i2cWrite_device (regAddr data : UInt32) :
    ∃ device', i2cWrite bus (some ctrl) regAddr data =
        (0, bus.setDevice path ctrl.devAddr.toUInt16 device') ∧
      device'.value = Function.update device.value (regAddr.toNat % 256 ^ regWidth.toNat)
        (data.toNat % 256 ^ dataWidth.toNat) := by
  obtain ⟨rfl, rfl⟩ := hwidths
  obtain ⟨device', hreceive, hvalue⟩ := exists_receive device hdata.toNat_pos regAddr.toNat
    data.toNat
  refine ⟨device', ?_, hvalue⟩
  simp [i2cWrite, message_eq hreg hdata, I2cBus.write, hfile, hdevice, hreceive]

end Devices

section Calls

variable {Handle : Type} {regWidth dataWidth : UInt32}
variable {sys : I2cSystem Handle regWidth dataWidth}

lemma of_registerFile (sys : I2cSystem Handle regWidth dataWidth) (h : Handle) :
    (registerFile sys).of h = (sys.bus.devices (i2cPath (sys.ctrl h).i2cNum)
      (sys.ctrl h).devAddr.toUInt16).map I2cDevice.value := rfl

lemma Attached.setBus (hsys : Attached sys) {bus : I2cBus regWidth.toNat dataWidth.toNat}
    (hfiles : bus.files = sys.bus.files) : Attached { sys with bus := bus } where
  widths := hsys.widths
  file h hopened := by
    rw [hfiles]
    exact hsys.file h hopened
  distinct := hsys.distinct

lemma registerFile_select {i2cNum : UInt32} {addr : UInt16}
    {device : I2cDevice regWidth.toNat dataWidth.toNat}
    (hdevice : sys.bus.devices (i2cPath i2cNum) addr = some device) (selected : ℕ) :
    registerFile { sys with
      bus := sys.bus.setDevice (i2cPath i2cNum) addr { device with selected := selected } } =
      registerFile sys := by
  apply RegisterFile.ext
  · rfl
  · rfl
  · have hvalue : (⟨device.cells, selected⟩ : I2cDevice regWidth.toNat dataWidth.toNat).value =
        device.value := rfl
    have hold : some device.value =
        (sys.bus.devices (i2cPath i2cNum) addr).map I2cDevice.value := by rw [hdevice]; rfl
    refine (cells_setDevice sys.bus i2cNum addr _).trans ?_
    rw [hvalue, hold, Function.update_eq_self, Function.update_eq_self]
    rfl

variable [DecidableEq Handle]

lemma read_refines (hreg : KnownWidth regWidth) (hdata : KnownWidth dataWidth)
    (hsys : Attached sys) {h : Handle} (hopened : sys.phase h = .opened) (regAddr : UInt32)
    {ret : Int32} {data : Option UInt32} {bus : I2cBus regWidth.toNat dataWidth.toNat}
    (hread : i2cRead sys.bus (some (sys.ctrl h)) regAddr = (ret, data, bus)) :
    registerCall regWidth dataWidth (registerFile sys) (.read h regAddr) =
        some ((ret, data), registerFile { sys with bus := bus }) ∧
      Attached { sys with bus := bus } := by
  have hfile := hsys.file h hopened
  have hwidths := hsys.widths h (by rw [hopened]; decide)
  have hphase : (registerFile sys).phase h = .opened := hopened
  rw [registerCall, if_pos hphase]
  cases hdevice : sys.bus.devices (i2cPath (sys.ctrl h).i2cNum) (sys.ctrl h).devAddr.toUInt16 with
  | none =>
    have hof : (registerFile sys).of h = none := by
      rw [of_registerFile, hdevice]
      rfl
    rw [i2cRead_missing hfile hdevice] at hread
    cases hread
    rw [hof]
    exact ⟨rfl, hsys⟩
  | some device =>
    have hof : (registerFile sys).of h = some device.value := by
      rw [of_registerFile, hdevice]
      rfl
    rw [i2cRead_device hreg hdata hwidths hfile hdevice] at hread
    cases hread
    rw [hof, registerFile_select hdevice]
    exact ⟨rfl, hsys.setBus rfl⟩

lemma write_refines (hreg : KnownWidth regWidth) (hdata : KnownWidth dataWidth)
    (hsys : Attached sys) {h : Handle} (hopened : sys.phase h = .opened) (regAddr data : UInt32)
    {ret : Int32} {bus : I2cBus regWidth.toNat dataWidth.toNat}
    (hwrite : i2cWrite sys.bus (some (sys.ctrl h)) regAddr data = (ret, bus)) :
    registerCall regWidth dataWidth (registerFile sys) (.write h regAddr data) =
        some ((ret, none), registerFile { sys with bus := bus }) ∧
      Attached { sys with bus := bus } := by
  have hfile := hsys.file h hopened
  have hwidths := hsys.widths h (by rw [hopened]; decide)
  have hphase : (registerFile sys).phase h = .opened := hopened
  rw [registerCall, if_pos hphase]
  cases hdevice : sys.bus.devices (i2cPath (sys.ctrl h).i2cNum) (sys.ctrl h).devAddr.toUInt16 with
  | none =>
    have hof : (registerFile sys).of h = none := by
      rw [of_registerFile, hdevice]
      rfl
    rw [i2cWrite_missing hfile hdevice] at hwrite
    cases hwrite
    rw [hof]
    exact ⟨rfl, hsys⟩
  | some device =>
    have hof : (registerFile sys).of h = some device.value := by
      rw [of_registerFile, hdevice]
      rfl
    obtain ⟨device', hexec, hvalue⟩ :=
      exists_i2cWrite_device hreg hdata hwidths hfile hdevice regAddr data
    rw [hexec] at hwrite
    cases hwrite
    rw [hof]
    refine ⟨?_, hsys.setBus rfl⟩
    dsimp only
    rw [← hvalue]
    congr 2
    apply RegisterFile.ext
    · rfl
    · rfl
    · exact (cells_setDevice sys.bus _ _ device').symm

lemma Attached.replace (hsys : Attached sys) (h : Handle) {ctrl : I2cCtrl} {phase : HandlePhase}
    {bus : I2cBus regWidth.toNat dataWidth.toNat}
    (hwidths : phase ≠ .raw → ctrl.regWidth = regWidth ∧ ctrl.dataWidth = dataWidth)
    (hfile : phase = .opened → bus.files ctrl.priv =
      some ⟨i2cPath ctrl.i2cNum, ctrl.devAddr.toUInt16⟩)
    (hothers : ∀ h', h' ≠ h → sys.phase h' = .opened →
      bus.files (sys.ctrl h').priv = sys.bus.files (sys.ctrl h').priv)
    (hfresh : phase = .opened → ∀ h', h' ≠ h → sys.phase h' = .opened →
      (sys.ctrl h').priv ≠ ctrl.priv) :
    Attached (⟨bus, Function.update sys.ctrl h ctrl, Function.update sys.phase h phase⟩ :
      I2cSystem Handle regWidth dataWidth) where
  widths h' hraw := by
    dsimp only at hraw ⊢
    by_cases hh : h' = h
    · subst hh
      rw [Function.update_self] at hraw ⊢
      exact hwidths hraw
    · rw [Function.update_of_ne hh] at hraw ⊢
      exact hsys.widths h' hraw
  file h' hopened := by
    dsimp only at hopened ⊢
    by_cases hh : h' = h
    · subst hh
      rw [Function.update_self] at hopened ⊢
      exact hfile hopened
    · rw [Function.update_of_ne hh] at hopened ⊢
      rw [hothers h' hh hopened]
      exact hsys.file h' hopened
  distinct h₁ h₂ hopened₁ hopened₂ hpriv := by
    dsimp only at hopened₁ hopened₂ hpriv
    by_cases hh₁ : h₁ = h
    · by_cases hh₂ : h₂ = h
      · exact hh₁.trans hh₂.symm
      · subst hh₁
        rw [Function.update_self] at hopened₁ hpriv
        rw [Function.update_of_ne hh₂] at hopened₂ hpriv
        exact absurd hpriv.symm (hfresh hopened₁ h₂ hh₂ hopened₂)
    · by_cases hh₂ : h₂ = h
      · subst hh₂
        rw [Function.update_of_ne hh₁] at hopened₁ hpriv
        rw [Function.update_self] at hopened₂ hpriv
        exact absurd hpriv (hfresh hopened₂ h₁ hh₁ hopened₁)
      · rw [Function.update_of_ne hh₁] at hopened₁ hpriv
        rw [Function.update_of_ne hh₂] at hopened₂ hpriv
        exact hsys.distinct h₁ h₂ hopened₁ hopened₂ hpriv

lemma registerFile_replace (sys : I2cSystem Handle regWidth dataWidth) (h : Handle)
    (ctrl : I2cCtrl) (phase : HandlePhase) {bus : I2cBus regWidth.toNat dataWidth.toNat}
    (hdevices : bus.devices = sys.bus.devices) :
    registerFile (⟨bus, Function.update sys.ctrl h ctrl, Function.update sys.phase h phase⟩ :
        I2cSystem Handle regWidth dataWidth) =
      ((registerFile sys).rename h ctrl.i2cNum ctrl.devAddr).setPhase h phase := by
  apply RegisterFile.ext
  · funext h'
    unfold registerFile RegisterFile.setPhase RegisterFile.rename
    dsimp only
    by_cases hh : h' = h
    · subst hh
      rw [Function.update_self, Function.update_self]
    · rw [Function.update_of_ne hh, Function.update_of_ne hh]
  · rfl
  · unfold registerFile RegisterFile.setPhase RegisterFile.rename
    dsimp only
    rw [hdevices]

lemma rename_self (sys : I2cSystem Handle regWidth dataWidth) (h : Handle) :
    (registerFile sys).rename h (sys.ctrl h).i2cNum (sys.ctrl h).devAddr = registerFile sys := by
  apply RegisterFile.ext
  · exact Function.update_eq_self h (registerFile sys).named
  · rfl
  · rfl

lemma setPhase_phase (file : RegisterFile Handle) (h : Handle) :
    file.setPhase h (file.phase h) = file := by
  apply RegisterFile.ext
  · rfl
  · exact Function.update_eq_self h file.phase
  · rfl

lemma init_refines (hsys : Attached sys) {h : Handle} (hclosed : sys.phase h ≠ .opened)
    (i2cNum devAddr : UInt32) :
    registerCall regWidth dataWidth (registerFile sys) (.initCtrl h i2cNum devAddr) =
        some (((0 : Int32), none), registerFile (⟨sys.bus,
          Function.update sys.ctrl h
            ⟨i2cNum, devAddr >>> 1, regWidth, dataWidth, (sys.ctrl h).priv⟩,
          Function.update sys.phase h .initialised⟩ : I2cSystem Handle regWidth dataWidth)) ∧
      Attached (⟨sys.bus,
        Function.update sys.ctrl h ⟨i2cNum, devAddr >>> 1, regWidth, dataWidth, (sys.ctrl h).priv⟩,
        Function.update sys.phase h .initialised⟩ : I2cSystem Handle regWidth dataWidth) := by
  have hphase : (registerFile sys).phase h ≠ .opened := hclosed
  rw [registerCall, if_neg hphase, registerFile_replace sys h _ _ rfl]
  refine ⟨rfl, hsys.replace h (fun _ => ⟨rfl, rfl⟩) (fun hopened => nomatch hopened)
    (fun _ _ _ => rfl) (fun hopened => nomatch hopened)⟩

lemma close_refines (hsys : Attached sys) {h : Handle} (hopened : sys.phase h = .opened)
    {ret : Int32} {bus : I2cBus regWidth.toNat dataWidth.toNat}
    (hclose : i2cClose sys.bus (some (sys.ctrl h)) = (ret, bus)) :
    registerCall regWidth dataWidth (registerFile sys) (.close h) =
        some ((ret, none), registerFile (⟨bus, sys.ctrl,
          Function.update sys.phase h .initialised⟩ : I2cSystem Handle regWidth dataWidth)) ∧
      Attached (⟨bus, sys.ctrl, Function.update sys.phase h .initialised⟩ :
        I2cSystem Handle regWidth dataWidth) := by
  have hphase : (registerFile sys).phase h = .opened := hopened
  have hwidths := hsys.widths h (by rw [hopened]; decide)
  have hctrl : ∀ bus phase, (⟨bus, sys.ctrl, phase⟩ : I2cSystem Handle regWidth dataWidth) =
      ⟨bus, Function.update sys.ctrl h (sys.ctrl h), phase⟩ := by
    intro bus phase
    rw [Function.update_eq_self]
  rw [i2cClose, hsys.file h hopened] at hclose
  cases hclose
  rw [registerCall, if_pos hphase, hctrl, registerFile_replace sys h _ _ (by rfl),
    rename_self]
  refine ⟨rfl, hsys.replace h (fun _ => hwidths) (fun hopen => nomatch hopen) ?_
    (fun hopen => nomatch hopen)⟩
  intro h' hne hopen'
  refine Function.update_of_ne ?_ _ _
  intro hpriv
  exact hne (hsys.distinct h' h hopen' hopened hpriv)

lemma change_refines (hsys : Attached sys) {h : Handle} (hopened : sys.phase h = .opened)
    (devAddr : UInt32) {ret : Int32} {ctrl : Option I2cCtrl}
    {bus : I2cBus regWidth.toNat dataWidth.toNat}
    (hchange : i2cChangeDevAddr sys.bus (some (sys.ctrl h)) devAddr = (ret, ctrl, bus)) :
    registerCall regWidth dataWidth (registerFile sys) (.changeDevAddr h devAddr) =
        some ((ret, none), registerFile (⟨bus,
          Function.update sys.ctrl h (ctrl.getD (sys.ctrl h)), sys.phase⟩ :
            I2cSystem Handle regWidth dataWidth)) ∧
      Attached (⟨bus, Function.update sys.ctrl h (ctrl.getD (sys.ctrl h)), sys.phase⟩ :
        I2cSystem Handle regWidth dataWidth) := by
  have hphase : (registerFile sys).phase h = .opened := hopened
  have hwidths := hsys.widths h (by rw [hopened]; decide)
  have hnamed : ((registerFile sys).named h).1 = (sys.ctrl h).i2cNum := rfl
  have hstays : ∀ bus ctrl', (⟨bus, ctrl', sys.phase⟩ : I2cSystem Handle regWidth dataWidth) =
      ⟨bus, ctrl', Function.update sys.phase h .opened⟩ := by
    intro bus ctrl'
    rw [← hopened, Function.update_eq_self]
  rw [i2cChangeDevAddr, I2cBus.ioctlSlaveForce, hsys.file h hopened] at hchange
  simp only [Option.bind_eq_bind, Option.bind_some] at hchange
  rw [registerCall, if_pos hphase]
  by_cases haddr : devAddr >>> 1 ≤ 0x7f
  · rw [if_pos haddr] at hchange
    cases hchange
    have hfile : (registerFile sys).rename h (sys.ctrl h).i2cNum (devAddr >>> 1) =
        ((registerFile sys).rename h (sys.ctrl h).i2cNum (devAddr >>> 1)).setPhase h .opened := by
      rw [← hphase]
      exact (setPhase_phase ((registerFile sys).rename h _ _) h).symm
    rw [if_pos haddr, hstays, Option.getD_some, registerFile_replace sys h _ _ (by rfl), hnamed]
    refine ⟨by rw [← hfile], hsys.replace h (fun _ => hwidths) ?_ ?_ ?_⟩
    · intro _
      exact Function.update_self ..
    · intro h' hne hopen'
      refine Function.update_of_ne ?_ _ _
      intro hpriv
      exact hne (hsys.distinct h' h hopen' hopened hpriv)
    · intro _ h' hne hopen' hpriv
      exact hne (hsys.distinct h' h hopen' hopened hpriv)
  · rw [if_neg haddr] at hchange
    cases hchange
    rw [if_neg haddr, Option.getD_some, Function.update_eq_self]
    exact ⟨rfl, hsys⟩

lemma open_refines (hsys : Attached sys) {h : Handle} (hphase : sys.phase h = .initialised)
    (fileName : Vector UInt8 16) {fd : Int64} (hfd : fd < 0 ∨ sys.bus.files fd = none)
    {ret : Int32} {ctrl : Option I2cCtrl} {bus : I2cBus regWidth.toNat dataWidth.toNat}
    (hopen : i2cOpen sys.bus fileName fd (some (sys.ctrl h)) = some (ret, ctrl, bus)) :
    registerCall regWidth dataWidth (registerFile sys) (.openCtrl h fileName fd) =
        some ((ret, none), registerFile (⟨bus,
          Function.update sys.ctrl h (ctrl.getD (sys.ctrl h)),
          Function.update sys.phase h (if ret = 0 then .opened else .initialised)⟩ :
            I2cSystem Handle regWidth dataWidth)) ∧
      Attached (⟨bus, Function.update sys.ctrl h (ctrl.getD (sys.ctrl h)),
        Function.update sys.phase h (if ret = 0 then .opened else .initialised)⟩ :
          I2cSystem Handle regWidth dataWidth) := by
  have hphase' : (registerFile sys).phase h = .initialised := hphase
  have hwidths := hsys.widths h (by rw [hphase]; decide)
  have hnamed : ((registerFile sys).named h).2 = (sys.ctrl h).devAddr := rfl
  rw [i2cOpen] at hopen
  cases hname : i2cFileName fileName (sys.ctrl h).i2cNum with
  | none =>
    rw [hname] at hopen
    cases hopen
  | some name =>
    rw [hname] at hopen
    simp only [Option.bind_eq_bind, Option.bind_some, text_i2cFileName hname] at hopen
    rw [registerCall, if_pos hphase', hnamed]
    by_cases hneg : fd < 0
    · rw [if_pos hneg] at hopen
      cases hopen
      rw [if_pos (.inl hneg), if_neg (by decide), Option.getD_some, ← hphase,
        Function.update_eq_self, Function.update_eq_self]
      exact ⟨rfl, hsys⟩
    · have hfree := hfd.resolve_left hneg
      rw [if_neg hneg, I2cBus.ioctlSlaveForce] at hopen
      simp only [I2cBus.setFile, Function.update_self, Option.bind_eq_bind, Option.bind_some]
        at hopen
      by_cases haddr : (sys.ctrl h).devAddr ≤ 0x7f
      · rw [if_pos haddr] at hopen
        cases hopen
        have hothers : ∀ h', sys.phase h' = .opened → (sys.ctrl h').priv ≠ fd := by
          intro h' hopen' hpriv
          have hused := hsys.file h' hopen'
          rw [hpriv, hfree] at hused
          cases hused
        rw [if_neg (fun hfail => hfail.elim hneg (fun h => h haddr)), if_pos rfl, Option.getD_some,
          registerFile_replace sys h _ _ (by rfl), rename_self]
        refine ⟨rfl, hsys.replace h (fun _ => hwidths) ?_ ?_ ?_⟩
        · intro _
          exact Function.update_self ..
        · intro h' _ hopen'
          dsimp only
          rw [Function.update_of_ne (hothers h' hopen'), Function.update_of_ne (hothers h' hopen')]
        · intro _ h' _ hopen'
          exact hothers h' hopen'
      · rw [if_neg haddr] at hopen
        cases hopen
        have hclosed : Function.update (Function.update sys.bus.files fd
            (some ⟨i2cPath (sys.ctrl h).i2cNum, 0⟩)) fd none = sys.bus.files := by
          rw [Function.update_idem, ← hfree, Function.update_eq_self]
        rw [if_pos (.inr haddr), if_neg (by decide), Option.getD_some, ← hphase, hclosed,
          Function.update_eq_self, Function.update_eq_self]
        exact ⟨rfl, hsys⟩

/-- Each call acts on the register file, and returns and stores what it says. -/
lemma i2cSystemCall_refines (hreg : KnownWidth regWidth) (hdata : KnownWidth dataWidth)
    (hsys : Attached sys) {call : I2cSystemCall Handle} {ret : Int32} {data : Option UInt32}
    {sys' : I2cSystem Handle regWidth dataWidth}
    (hcall : i2cSystemCall sys call = some (ret, data, sys')) :
    registerCall regWidth dataWidth (registerFile sys) call =
        some ((ret, data), registerFile sys') ∧ Attached sys' := by
  cases call with
  | initCtrl h i2cNum devAddr =>
    rw [i2cSystemCall] at hcall
    split at hcall
    · cases hcall
    · rename_i hclosed
      cases hcall
      exact init_refines hsys hclosed i2cNum devAddr
  | openCtrl h fileName fd =>
    rw [i2cSystemCall] at hcall
    split at hcall
    · rename_i hrule
      cases hopen : i2cOpen sys.bus fileName fd (some (sys.ctrl h)) with
      | none =>
        rw [hopen] at hcall
        cases hcall
      | some result =>
        rw [hopen] at hcall
        cases hcall
        exact open_refines hsys hrule.1 fileName hrule.2 hopen
    · cases hcall
  | changeDevAddr h devAddr =>
    rw [i2cSystemCall] at hcall
    split at hcall
    · rename_i hopened
      cases hcall
      exact change_refines hsys hopened devAddr rfl
    · cases hcall
  | close h =>
    rw [i2cSystemCall] at hcall
    split at hcall
    · rename_i hopened
      cases hcall
      exact close_refines hsys hopened rfl
    · cases hcall
  | read h regAddr =>
    rw [i2cSystemCall] at hcall
    split at hcall
    · rename_i hopened
      cases hcall
      exact read_refines hreg hdata hsys hopened regAddr rfl
    · cases hcall
  | write h regAddr data =>
    rw [i2cSystemCall] at hcall
    split at hcall
    · rename_i hopened
      cases hcall
      exact write_refines hreg hdata hsys hopened regAddr data rfl
    · cases hcall

end Calls

/-- However many handles there are and whichever devices they are pointed at, the calls act on
one register file: a read through any handle returns what was last written to that register of
that device through any other, a failed call changes nothing, and `i2c_write` never goes to
another device than `i2c_read`. -/
theorem i2c_handles_share_registers {Handle : Type} [DecidableEq Handle]
    (regWidth dataWidth : UInt32) (hreg : regWidth = 1 ∨ regWidth = 2)
    (hdata : dataWidth = 1 ∨ dataWidth = 2) (sys sys' : I2cSystem Handle regWidth dataWidth)
    (hstart : ∀ h, sys.phase h = .raw) (calls : List (I2cSystemCall Handle))
    (replies : List (Int32 × Option UInt32))
    (hrun : i2cSystemCalls sys calls = some (replies, sys')) :
    registerCalls regWidth dataWidth (registerFile sys) calls = some (replies, registerFile sys') ∧
      Attached sys' := by
  have hclosed : ∀ h, sys.phase h ≠ .opened := by
    intro h hopened
    rw [hstart h] at hopened
    cases hopened
  have hattached : Attached sys :=
    ⟨fun h hraw => absurd (hstart h) hraw, fun h hopened => absurd hopened (hclosed h),
      fun h _ hopened => absurd hopened (hclosed h)⟩
  clear hstart hclosed
  induction calls generalizing sys replies with
  | nil =>
    cases hrun
    exact ⟨rfl, hattached⟩
  | cons call calls ih =>
    rw [i2cSystemCalls] at hrun
    cases hcall : i2cSystemCall sys call with
    | none =>
      rw [hcall] at hrun
      cases hrun
    | some result =>
      obtain ⟨ret, data, sys₁⟩ := result
      rw [hcall] at hrun
      simp only [Option.bind_eq_bind, Option.bind_some] at hrun
      cases hrest : i2cSystemCalls sys₁ calls with
      | none =>
        rw [hrest] at hrun
        cases hrun
      | some rest =>
        rw [hrest] at hrun
        cases hrun
        obtain ⟨hstep, hattached₁⟩ := i2cSystemCall_refines hreg hdata hattached hcall
        obtain ⟨hcalls, hattached'⟩ := ih sys₁ rest.1 hrest hattached₁
        refine ⟨?_, hattached'⟩
        rw [registerCalls, hstep]
        simp only [Option.bind_eq_bind, Option.bind_some, hcalls]

/-- A bridge at address 0x1b and a sensor at 0x30 on bus 2, and two handles. -/
def bridgeSystem : I2cSystem Bool 2 1 where
  bus :=
    { files _ := none
      devices path addr :=
        if path = i2cPath 2 ∧ (addr = 0x1b ∨ addr = 0x30) then some ⟨fun _ _ => 7, 0⟩ else none }
  ctrl _ := ⟨0, 0, 0, 0, 0⟩
  phase _ := .raw

/-- The second handle writes to the sensor; the first one is pointed at the bridge, then at no
device, which fails, and then at the sensor. -/
def bridgeCalls : List (I2cSystemCall Bool) :=
  [.initCtrl false 2 0x36, .initCtrl true 2 0x60, .openCtrl false (Vector.replicate 16 0) 3,
    .openCtrl true (Vector.replicate 16 0) 4, .write true 0x3e01 0x5a, .read false 0x3e01,
    .changeDevAddr false 0x200, .read false 0x3e01, .changeDevAddr false 0x60,
    .read false 0x3e01, .close false]

theorem i2c_bridge_reads_sensor :
    ∃ sys', i2cSystemCalls bridgeSystem bridgeCalls =
        some ([(0, none), (0, none), (0, none), (0, none), (0, none), (0, some 7), (-1, none),
          (0, some 7), (0, none), (0, some 0x5a), (0, none)], sys') ∧
      registerCalls 2 1 (registerFile bridgeSystem) bridgeCalls =
        some ([(0, none), (0, none), (0, none), (0, none), (0, none), (0, some 7), (-1, none),
          (0, some 7), (0, none), (0, some 0x5a), (0, none)], registerFile sys') := by
  obtain ⟨sys', hrun⟩ : ∃ sys', i2cSystemCalls bridgeSystem bridgeCalls =
      some ([(0, none), (0, none), (0, none), (0, none), (0, none), (0, some 7), (-1, none),
        (0, some 7), (0, none), (0, some 0x5a), (0, none)], sys') := ⟨_, rfl⟩
  exact ⟨sys', hrun, (i2c_handles_share_registers 2 1 (by decide) (by decide) bridgeSystem sys'
    (fun _ => rfl) bridgeCalls _ hrun).1⟩

end GeneralPurposeLibrary.Proofs
