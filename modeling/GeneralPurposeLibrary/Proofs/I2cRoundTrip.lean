import GeneralPurposeLibrary.Foundation.CellHistory
import GeneralPurposeLibrary.Foundation.GuardedRuns
import GeneralPurposeLibrary.I2cCtrl
import Mathlib.Data.List.OfFn
import Mathlib.Data.Nat.Bitwise

/-!
# Registers written and read back

Both calls put the register number in front of the message in as many bytes as the device
expects, so that they select the same cell, and a cell is written and read in the same byte
order. A run of calls therefore acts on the values of the cells as a run of writes to a plain
memory.
-/

namespace GeneralPurposeLibrary.Proofs
open ByteOrder CString HexText CellHistory GuardedRuns

/-- A width that the functions know. -/
def KnownWidth (width : UInt32) : Prop := width = 1 ∨ width = 2

lemma KnownWidth.toNat_pos {width : UInt32} (h : KnownWidth width) : 0 < width.toNat := by
  rcases h with rfl | rfl
  · decide
  · decide

lemma KnownWidth.toNat_toUInt16 {width : UInt32} (h : KnownWidth width) :
    width.toUInt16.toNat = width.toNat := by
  rcases h with rfl | rfl
  · rfl
  · rfl

section Bytes

lemma lowByte_eq (v : UInt32) : (v &&& 0xff).toUInt8 = UInt8.ofNat v.toNat := by
  apply UInt8.toNat_inj.mp
  have hmask : v.toNat &&& 255 = v.toNat % 256 := Nat.and_two_pow_sub_one_eq_mod v.toNat 8
  rw [UInt32.toNat_toUInt8, UInt32.toNat_and, UInt8.toNat_ofNat']
  change (v.toNat &&& 255) % 256 = v.toNat % 256
  rw [hmask, Nat.mod_mod]

lemma highByte_eq (v : UInt32) : ((v >>> 8) &&& 0xff).toUInt8 = UInt8.ofNat (v.toNat / 256) := by
  have hshift : (v >>> 8).toNat = v.toNat / 256 := by
    rw [UInt32.toNat_shiftRight]
    exact Nat.shiftRight_eq_div_pow v.toNat 8
  rw [lowByte_eq, hshift]

lemma joinBytes_toNat (hi lo : UInt8) :
    (lo.toUInt32 ||| (hi.toUInt32 <<< 8)).toNat = hi.toNat * 256 + lo.toNat := by
  have hhi : hi.toNat < 256 := hi.toNat_lt
  have hlo : lo.toNat < 2 ^ 8 := lo.toNat_lt
  have hshift : (hi.toUInt32 <<< 8).toNat = hi.toNat * 2 ^ 8 := by
    rw [UInt32.toNat_shiftLeft, UInt8.toNat_toUInt32]
    change hi.toNat <<< 8 % 2 ^ 32 = hi.toNat * 2 ^ 8
    rw [Nat.shiftLeft_eq]
    omega
  rw [UInt32.toNat_or, hshift, UInt8.toNat_toUInt32, Nat.or_comm, Nat.mul_comm,
    ← Nat.two_pow_add_eq_or_of_lt hlo]
  omega

/-- The buffer with the bytes put so far, and zeros behind them. -/
def partlyFilled (front : List UInt8) (n : ℕ) : List UInt8 × ℕ :=
  (front ++ List.replicate n 0, front.length)

lemma putByte_eq (front : List UInt8) (n : ℕ) (b : UInt8) :
    putByte (partlyFilled front (n + 1)) b = partlyFilled (front ++ [b]) n := by
  simp [putByte, partlyFilled, List.replicate_succ]

lemma putValue_eq {width : UInt32} (hwidth : KnownWidth width) (value : UInt32)
    (front : List UInt8) (n : ℕ) :
    putValue width value (partlyFilled front (n + width.toNat)) =
      partlyFilled (front ++ toBigEndian width.toNat value.toNat) n := by
  rcases hwidth with rfl | rfl
  · rw [putValue, if_neg (by decide), lowByte_eq]
    exact putByte_eq front n _
  · rw [putValue, if_pos rfl, highByte_eq, lowByte_eq]
    change putByte (putByte (partlyFilled front (n + 1 + 1)) _) _ = _
    rw [putByte_eq, putByte_eq, List.append_assoc]
    rfl

lemma message_eq {regWidth dataWidth : UInt32} (hreg : KnownWidth regWidth)
    (hdata : KnownWidth dataWidth) (regAddr data : UInt32) :
    (putValue dataWidth data (putValue regWidth regAddr ([0, 0, 0, 0], 0))).1.take
        (putValue dataWidth data (putValue regWidth regAddr ([0, 0, 0, 0], 0))).2 =
      toBigEndian regWidth.toNat regAddr.toNat ++ toBigEndian dataWidth.toNat data.toNat := by
  obtain ⟨n, hn⟩ : ∃ n, n + dataWidth.toNat + regWidth.toNat = 4 := by
    rcases hreg with rfl | rfl
    · rcases hdata with rfl | rfl
      · exact ⟨2, rfl⟩
      · exact ⟨1, rfl⟩
    · rcases hdata with rfl | rfl
      · exact ⟨1, rfl⟩
      · exact ⟨0, rfl⟩
  have hempty : (([0, 0, 0, 0], 0) : List UInt8 × ℕ) =
      partlyFilled [] (n + dataWidth.toNat + regWidth.toNat) := by
    rw [hn]
    rfl
  rw [hempty, putValue_eq hreg, putValue_eq hdata, List.nil_append, partlyFilled, List.take_left]

lemma take_addressBuf {regWidth : UInt32} (hreg : KnownWidth regWidth) (regAddr : UInt32) :
    (addressBuf regWidth regAddr).take regWidth.toUInt16.toNat =
      toBigEndian regWidth.toNat regAddr.toNat := by
  rw [addressBuf, highByte_eq, lowByte_eq]
  rcases hreg with rfl | rfl
  · rfl
  · rfl

lemma toNat_dataOfBuf {dataWidth : UInt32} (hdata : KnownWidth dataWidth) {bytes : List UInt8}
    (hlen : bytes.length = dataWidth.toNat) (rest : List UInt8) :
    (dataOfBuf dataWidth (bytes ++ rest)).toNat = ofBigEndian bytes := by
  rcases hdata with rfl | rfl
  · obtain ⟨b, rfl⟩ := List.length_eq_one_iff.mp hlen
    change b.toUInt32.toNat = 0 * 256 + b.toNat
    rw [UInt8.toNat_toUInt32, Nat.zero_mul, Nat.zero_add]
  · obtain ⟨hi, lo, rfl⟩ := List.length_eq_two.mp hlen
    change (lo.toUInt32 ||| (hi.toUInt32 <<< 8)).toNat = (0 * 256 + hi.toNat) * 256 + lo.toNat
    rw [joinBytes_toNat, Nat.zero_mul, Nat.zero_add]

end Bytes

section Device

variable {regWidth dataWidth : ℕ} {device : I2cDevice regWidth dataWidth}

lemma receive_address (n : ℕ) :
    device.receive (toBigEndian regWidth n) =
      some { device with selected := n % 256 ^ regWidth } := by
  rw [I2cDevice.receive]
  simp only [length_toBigEndian, if_true]
  rw [List.take_of_length_le (length_toBigEndian regWidth n).le, ofBigEndian_toBigEndian]

lemma value_update (device : I2cDevice regWidth dataWidth) (register selected : ℕ)
    (cell : Fin dataWidth → UInt8) :
    (⟨Function.update device.cells register cell, selected⟩ :
        I2cDevice regWidth dataWidth).value =
      Function.update device.value register (ofBigEndian (List.ofFn cell)) :=
  Function.comp_update (fun cell => ofBigEndian (List.ofFn cell)) device.cells register cell

lemma exists_receive (device : I2cDevice regWidth dataWidth) (hpos : 0 < dataWidth)
    (n value : ℕ) :
    ∃ device', device.receive (toBigEndian regWidth n ++ toBigEndian dataWidth value) =
        some device' ∧
      device'.value =
        Function.update device.value (n % 256 ^ regWidth) (value % 256 ^ dataWidth) := by
  have hlen : (toBigEndian regWidth n ++ toBigEndian dataWidth value).length =
      regWidth + dataWidth := by
    rw [List.length_append, length_toBigEndian, length_toBigEndian]
  have htake : (toBigEndian regWidth n ++ toBigEndian dataWidth value).take regWidth =
      toBigEndian regWidth n := List.take_left' (length_toBigEndian regWidth n)
  have hcell : List.ofFn (fun i : Fin dataWidth =>
      (toBigEndian regWidth n ++ toBigEndian dataWidth value).getD (regWidth + i) 0) =
      toBigEndian dataWidth value := by
    apply List.ext_getElem
    · rw [List.length_ofFn, length_toBigEndian]
    · intro i _ hi
      rw [List.getElem_ofFn, List.getD_eq_getElem?_getD, List.getElem?_append_right (by simp),
        length_toBigEndian, Nat.add_sub_cancel_left, List.getElem?_eq_getElem hi,
        Option.getD_some]
  have hreceive : device.receive (toBigEndian regWidth n ++ toBigEndian dataWidth value) =
      some ⟨Function.update device.cells (n % 256 ^ regWidth) fun i =>
        (toBigEndian regWidth n ++ toBigEndian dataWidth value).getD (regWidth + i) 0,
        n % 256 ^ regWidth⟩ := by
    rw [I2cDevice.receive, hlen, htake, if_neg (by omega), if_pos rfl, ofBigEndian_toBigEndian]
  refine ⟨_, hreceive, ?_⟩
  rw [value_update, hcell, ofBigEndian_toBigEndian]

end Device

section Calls

variable {ctrl : I2cCtrl} {path : List UInt8}
  {bus : I2cBus ctrl.regWidth.toNat ctrl.dataWidth.toNat}
  {device : I2cDevice ctrl.regWidth.toNat ctrl.dataWidth.toNat}

/-- The handle leads to the device, for `write` as for the messages of `I2C_RDWR`. -/
structure Connected (ctrl : I2cCtrl) (path : List UInt8)
    (bus : I2cBus ctrl.regWidth.toNat ctrl.dataWidth.toNat)
    (device : I2cDevice ctrl.regWidth.toNat ctrl.dataWidth.toNat) : Prop where
  file_eq : bus.files ctrl.priv = some ⟨path, ctrl.devAddr.toUInt16⟩
  device_eq : bus.devices path ctrl.devAddr.toUInt16 = some device

lemma Connected.setDevice (h : Connected ctrl path bus device)
    (device' : I2cDevice ctrl.regWidth.toNat ctrl.dataWidth.toNat) :
    Connected ctrl path (bus.setDevice path ctrl.devAddr.toUInt16 device') device' where
  file_eq := h.file_eq
  device_eq := by simp [I2cBus.setDevice]

lemma i2cRead_of_ioctl {regAddr : UInt32} {bytes : List UInt8}
    {bus' : I2cBus ctrl.regWidth.toNat ctrl.dataWidth.toNat}
    (hrdwr : bus.ioctlRdwr ctrl.priv
        ⟨ctrl.devAddr.toUInt16, 0, ctrl.regWidth.toUInt16, addressBuf ctrl.regWidth regAddr⟩
        ⟨ctrl.devAddr.toUInt16, 0 ||| i2cMRd, ctrl.dataWidth.toUInt16,
          addressBuf ctrl.regWidth regAddr⟩ = some (2, bytes, bus')) :
    i2cRead bus (some ctrl) regAddr =
      (0, some (dataOfBuf ctrl.dataWidth
        (bytes ++ (addressBuf ctrl.regWidth regAddr).drop bytes.length)), bus') := by
  rw [i2cRead, hrdwr]
  exact if_neg (by decide)

lemma transferOne_address (hreg : KnownWidth ctrl.regWidth)
    (h : Connected ctrl path bus device) (regAddr : UInt32) :
    bus.transferOne path
        ⟨ctrl.devAddr.toUInt16, 0, ctrl.regWidth.toUInt16, addressBuf ctrl.regWidth regAddr⟩ =
      some ([], bus.setDevice path ctrl.devAddr.toUInt16
        { device with selected := regAddr.toNat % 256 ^ ctrl.regWidth.toNat }) := by
  rw [I2cBus.transferOne, h.device_eq]
  simp only [Option.bind_eq_bind, Option.bind_some]
  rw [if_neg (by decide), take_addressBuf hreg, receive_address]
  rfl

lemma transferOne_cell (hdata : KnownWidth ctrl.dataWidth) (h : Connected ctrl path bus device)
    (buf : List UInt8) :
    bus.transferOne path
        ⟨ctrl.devAddr.toUInt16, 0 ||| i2cMRd, ctrl.dataWidth.toUInt16, buf⟩ =
      some (List.ofFn (device.cells device.selected), bus) := by
  rw [I2cBus.transferOne, h.device_eq]
  simp only [Option.bind_eq_bind, Option.bind_some]
  rw [if_pos (by decide), hdata.toNat_toUInt16, I2cDevice.deliver, if_pos rfl]
  rfl

variable (hreg : KnownWidth ctrl.regWidth) (hdata : KnownWidth ctrl.dataWidth)
  (h : Connected ctrl path bus device)

include hreg hdata h

lemma exists_i2cWrite (regAddr data : UInt32) :
    ∃ bus' device', i2cWrite bus (some ctrl) regAddr data = (0, bus') ∧
      Connected ctrl path bus' device' ∧
      device'.value = Function.update device.value (regAddr.toNat % 256 ^ ctrl.regWidth.toNat)
        (data.toNat % 256 ^ ctrl.dataWidth.toNat) := by
  obtain ⟨device', hreceive, hvalue⟩ := exists_receive device hdata.toNat_pos regAddr.toNat
    data.toNat
  have hwrite : bus.write ctrl.priv (toBigEndian ctrl.regWidth.toNat regAddr.toNat ++
      toBigEndian ctrl.dataWidth.toNat data.toNat) =
      some (ctrl.regWidth.toNat + ctrl.dataWidth.toNat,
        bus.setDevice path ctrl.devAddr.toUInt16 device') := by
    simp [I2cBus.write, h.file_eq, h.device_eq, hreceive]
  refine ⟨_, device', ?_, h.setDevice device', hvalue⟩
  simp only [i2cWrite, message_eq hreg hdata, hwrite]

lemma ioctlRdwr_eq (regAddr : UInt32) :
    bus.ioctlRdwr ctrl.priv
        ⟨ctrl.devAddr.toUInt16, 0, ctrl.regWidth.toUInt16, addressBuf ctrl.regWidth regAddr⟩
        ⟨ctrl.devAddr.toUInt16, 0 ||| i2cMRd, ctrl.dataWidth.toUInt16,
          addressBuf ctrl.regWidth regAddr⟩ =
      some (2, List.ofFn (device.cells (regAddr.toNat % 256 ^ ctrl.regWidth.toNat)),
        bus.setDevice path ctrl.devAddr.toUInt16
          { device with selected := regAddr.toNat % 256 ^ ctrl.regWidth.toNat }) := by
  rw [I2cBus.ioctlRdwr, h.file_eq]
  simp only [Option.bind_eq_bind, Option.bind_some]
  rw [transferOne_address hreg h, Option.bind_some, transferOne_cell hdata (h.setDevice _)]
  rfl

lemma exists_i2cRead (regAddr : UInt32) :
    ∃ data bus' device', i2cRead bus (some ctrl) regAddr = (0, some data, bus') ∧
      Connected ctrl path bus' device' ∧ device'.cells = device.cells ∧
      data.toNat = device.value (regAddr.toNat % 256 ^ ctrl.regWidth.toNat) := by
  have hread := i2cRead_of_ioctl (ioctlRdwr_eq hreg hdata h regAddr)
  exact ⟨_, _, _, hread, h.setDevice _, rfl, toNat_dataOfBuf hdata List.length_ofFn _⟩

end Calls

/-- The cell that a call writes and the value it gets. -/
def registerWrite (regWidth dataWidth : UInt32) : I2cCall → Option (ℕ × ℕ)
  | .read _ => none
  | .write regAddr data =>
    some (regAddr.toNat % 2 ^ (8 * regWidth.toNat), data.toNat % 2 ^ (8 * dataWidth.toNat))

lemma two_pow_bits (n : ℕ) : 2 ^ (8 * n) = 256 ^ n := Nat.pow_mul 2 8 n

section Runs

variable {ctrl : I2cCtrl} {path : List UInt8}
  {bus : I2cBus ctrl.regWidth.toNat ctrl.dataWidth.toNat}
  {device : I2cDevice ctrl.regWidth.toNat ctrl.dataWidth.toNat}
  (hreg : KnownWidth ctrl.regWidth) (hdata : KnownWidth ctrl.dataWidth)
  (h : Connected ctrl path bus device)

include hreg hdata h

/-- Each call acts on the values of the cells as the write it stands for. -/
lemma exists_i2cStep (call : I2cCall) :
    ∃ bus' device', i2cStep ctrl bus call = some bus' ∧ Connected ctrl path bus' device' ∧
      device'.value =
        CellHistory.apply (registerWrite ctrl.regWidth ctrl.dataWidth) device.value call := by
  cases call with
  | read regAddr =>
    obtain ⟨data, bus', device', hread, h', hcells, -⟩ := exists_i2cRead hreg hdata h regAddr
    refine ⟨bus', device', ?_, h', ?_⟩
    · rw [i2cStep, hread]
      exact if_pos rfl
    · funext register
      rw [I2cDevice.value, hcells]
      rfl
  | write regAddr data =>
    obtain ⟨bus', device', hwrite, h', hvalue⟩ := exists_i2cWrite hreg hdata h regAddr data
    refine ⟨bus', device', ?_, h', ?_⟩
    · rw [i2cStep, hwrite]
      exact if_pos rfl
    · rw [hvalue, ← two_pow_bits, ← two_pow_bits]
      rfl

lemma exists_run_i2cStep (calls : List I2cCall) :
    ∃ bus' device', run (i2cStep ctrl) bus calls = some bus' ∧ Connected ctrl path bus' device' ∧
      device'.value = calls.foldl
        (CellHistory.apply (registerWrite ctrl.regWidth ctrl.dataWidth)) device.value := by
  induction calls generalizing bus device with
  | nil => exact ⟨bus, device, rfl, h, rfl⟩
  | cons call calls ih =>
    obtain ⟨bus₁, device₁, hstep, h₁, hvalue₁⟩ := exists_i2cStep hreg hdata h call
    obtain ⟨bus', device', hrun, h', hvalue'⟩ := ih h₁
    refine ⟨bus', device', ?_, h', ?_⟩
    · rw [run, hstep]
      exact hrun
    · rw [hvalue', hvalue₁, List.foldl_cons]

end Runs

section Open

variable {regWidth dataWidth : ℕ} {bus bus' : I2cBus regWidth dataWidth}

lemma zero_notMem_i2cPath (i2cNum : UInt32) : 0 ∉ i2cPath i2cNum := by
  intro h
  rcases List.mem_append.mp h with hname | hdigits
  · revert hname
    decide
  · obtain ⟨c, hc, hzero⟩ := List.mem_map.mp hdigits
    exact asciiByte_ne_zero_of_isDigit
      (Nat.isDigit_of_mem_toDigits (by decide) (by decide) hc) hzero

lemma text_i2cFileName {fileName : Vector UInt8 16} {i2cNum : UInt32} {name : List UInt8}
    (h : i2cFileName fileName i2cNum = some name) : text name = i2cPath i2cNum := by
  rw [i2cFileName, storeAt] at h
  split at h
  · cases h
    refine Holds.text_eq ⟨zero_notMem_i2cPath i2cNum, ?_⟩
    rw [List.take_zero, List.nil_append, List.append_assoc]
    exact ⟨_, rfl⟩
  · cases h

lemma i2cOpen_succeeds {fileName : Vector UInt8 16} {fd : Int64} {ctrl ctrl' : I2cCtrl}
    (h : i2cOpen bus fileName fd (some ctrl) = some (0, some ctrl', bus')) :
    ctrl' = { ctrl with priv := fd } ∧
    bus'.files fd = some ⟨i2cPath ctrl.i2cNum, ctrl.devAddr.toUInt16⟩ ∧
    bus'.devices = bus.devices := by
  rw [i2cOpen] at h
  cases hname : i2cFileName fileName ctrl.i2cNum with
  | none =>
    rw [hname] at h
    cases h
  | some name =>
    rw [hname] at h
    simp only [Option.bind_eq_bind, Option.bind_some, text_i2cFileName hname] at h
    split at h
    · cases h
    · rw [I2cBus.ioctlSlaveForce] at h
      simp only [I2cBus.setFile, Function.update_self, Option.bind_eq_bind, Option.bind_some] at h
      by_cases haddr : ctrl.devAddr ≤ 0x7f
      · rw [if_pos haddr] at h
        cases h
        exact ⟨rfl, Function.update_self .., rfl⟩
      · rw [if_neg haddr] at h
        cases h

end Open

/-- On a handle that was set up for a device, all calls succeed. A read stores the data of the
last write to the same cell, or what the cell held at first, and it changes no cell. -/
theorem i2c_read_gets_last_write (i2cNum devAddr regWidth dataWidth : UInt32)
    (hreg : regWidth = 1 ∨ regWidth = 2) (hdata : dataWidth = 1 ∨ dataWidth = 2)
    (bus bus₁ : I2cBus regWidth.toNat dataWidth.toNat)
    (device : I2cDevice regWidth.toNat dataWidth.toNat) (fileName : Vector UInt8 16) (fd : Int64)
    (ctrl₀ ctrl₁ ctrl : I2cCtrl)
    (hinit : i2cInitCtrl (some ctrl₀) i2cNum devAddr regWidth dataWidth = (0, some ctrl₁))
    (hopen : i2cOpen bus fileName fd (some ctrl₁) = some (0, some ctrl, bus₁))
    (hdevice : bus.devices (i2cPath i2cNum) (devAddr >>> 1).toUInt16 = some device)
    (calls : List I2cCall) :
    ∃ bus₂ before, run (i2cStep ctrl) bus₁ calls = some bus₂ ∧
      bus₂.devices (i2cPath i2cNum) (devAddr >>> 1).toUInt16 = some before ∧
      ∀ regAddr : UInt32, ∃ data bus₃ after,
        i2cRead bus₂ (some ctrl) regAddr = (0, some data, bus₃) ∧
        data.toNat =
          (lastWritten (registerWrite regWidth dataWidth) calls
              (regAddr.toNat % 2 ^ (8 * regWidth.toNat))).getD
            (device.value (regAddr.toNat % 2 ^ (8 * regWidth.toNat))) ∧
        bus₃.devices (i2cPath i2cNum) (devAddr >>> 1).toUInt16 = some after ∧
        after.cells = before.cells := by
  cases hinit
  obtain ⟨rfl, hfile, hdevices⟩ := i2cOpen_succeeds hopen
  have hconnected : Connected ⟨i2cNum, devAddr >>> 1, regWidth, dataWidth, fd⟩ (i2cPath i2cNum)
      bus₁ device := ⟨hfile, hdevices ▸ hdevice⟩
  have hreg' : KnownWidth (I2cCtrl.regWidth ⟨i2cNum, devAddr >>> 1, regWidth, dataWidth, fd⟩) :=
    hreg
  have hdata' : KnownWidth (I2cCtrl.dataWidth ⟨i2cNum, devAddr >>> 1, regWidth, dataWidth, fd⟩) :=
    hdata
  obtain ⟨bus₂, before, hrun, hbefore, hvalue⟩ :=
    exists_run_i2cStep hreg' hdata' hconnected calls
  refine ⟨bus₂, before, hrun, hbefore.device_eq, ?_⟩
  intro regAddr
  obtain ⟨data, bus₃, after, hread, hafter, hcells, hstored⟩ :=
    exists_i2cRead hreg' hdata' hbefore regAddr
  refine ⟨data, bus₃, after, hread, ?_, hafter.device_eq, hcells⟩
  rw [hstored, hvalue, foldl_apply, two_pow_bits]

/-- One device with one-byte register numbers and cells of two zero bytes. -/
def sensorBus : I2cBus 1 2 where
  files _ := none
  devices path addr := if path = i2cPath 1 ∧ addr = 0x50 then some ⟨fun _ _ => 0, 0⟩ else none

theorem register_wraps_around :
    ∃ ctrl bus₁ bus₂ bus₃,
      i2cOpen sensorBus (Vector.replicate 16 0) 3 (some ⟨1, 0x50, 1, 2, 0⟩) =
        some (0, some ctrl, bus₁) ∧
      run (i2cStep ctrl) bus₁ [.write 0x107 0x1abcd, .read 0x08, .write 0x06 1] = some bus₂ ∧
      i2cRead bus₂ (some ctrl) 0x07 = (0, some 0xabcd, bus₃) := by
  have hopen : i2cOpen sensorBus (Vector.replicate 16 0) 3 (some ⟨1, 0x50, 1, 2, 0⟩) =
      some (0, some ⟨1, 0x50, 1, 2, 3⟩, (sensorBus.setFile 3 (some ⟨i2cPath 1, 0⟩)).setFile 3
        (some ⟨i2cPath 1, 0x50⟩)) := by rfl
  obtain ⟨bus₂, before, hrun, -, hread⟩ := i2c_read_gets_last_write 1 0xa0 1 2 (by decide)
    (by decide) sensorBus _ ⟨fun _ _ => 0, 0⟩ (Vector.replicate 16 0) 3 ⟨0, 0, 0, 0, 0⟩ _ _ rfl
    hopen rfl [.write 0x107 0x1abcd, .read 0x08, .write 0x06 1]
  obtain ⟨data, bus₃, after, hcall, hdata, -, -⟩ := hread 0x07
  have hvalue : data = 0xabcd := by
    apply UInt32.toNat_inj.mp
    rw [hdata]
    decide
  rw [hvalue] at hcall
  exact ⟨_, _, bus₂, bus₃, hopen, hrun, hcall⟩

end GeneralPurposeLibrary.Proofs
