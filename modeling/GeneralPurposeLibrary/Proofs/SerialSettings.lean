import GeneralPurposeLibrary.BasicSerial
import GeneralPurposeLibrary.Foundation.FlagWord
import Mathlib.Data.Bool.AllAny

/-!
# What the serial port settings leave in the control flags

`set_data_bits` raises the bits of the requested size and clears none, so the size that was
set before shows through: after `cfmakeraw`, which sets eight data bits, every configuration
has eight of them. Stop bits and parity are cleared and raised as requested.
-/

namespace GeneralPurposeLibrary.Proofs
open Termbits FlagWord

/-- The value of the `CSIZE` field for a number of data bits. -/
def dataBitsCode (dataBits : Int32) : BitVec 32 :=
  if dataBits = 5 then cs5 else if dataBits = 6 then cs6 else if dataBits = 7 then cs7 else cs8

/-- The arguments that `serial_set_conf` supports. -/
structure ConfRequest where
  speed : Int32
  dataBits : Int32
  stopBits : Int32
  parity : UInt8
  speed_mem : speed ∈ mMapTable.map Prod.fst
  dataBits_mem : dataBits ∈ ([5, 6, 7, 8] : List Int32)
  stopBits_mem : stopBits ∈ ([1, 2] : List Int32)
  parity_mem : Char.ofUInt8 parity ∈ ['n', 'N', 'o', 'O', 'e', 'E']

inductive SerialRequest where
  | conf (c : ConfRequest)
  | databits (dataBits : Int32) (mem : dataBits ∈ ([5, 6, 7, 8] : List Int32))

def SerialRequest.dataBits : SerialRequest → Int32
  | .conf c => c.dataBits
  | .databits dataBits _ => dataBits

/-- The call on a port whose `tcgetattr` and `tcsetattr` succeed. -/
def SerialRequest.perform (port : Termios) : SerialRequest → Termios × Int32
  | .conf c => serialSetConf ⟨0, 0⟩ port c.speed c.dataBits c.stopBits c.parity
  | .databits dataBits _ => serialSetDatabits ⟨0, 0⟩ port dataBits

def serialRun (port : Termios) (requests : List SerialRequest) : Termios :=
  requests.foldl (fun port request => (request.perform port).1) port

def lastConf (requests : List SerialRequest) : Option ConfRequest :=
  requests.foldl (fun last request =>
    match request with
    | .conf c => some c
    | .databits _ _ => last) none

def ConfRequest.OddParity (c : ConfRequest) : Prop := Char.ofUInt8 c.parity ∈ ['o', 'O']

def ConfRequest.EvenParity (c : ConfRequest) : Prop := Char.ofUInt8 c.parity ∈ ['e', 'E']

/-- The stop bits and the parity of the port are those of the configuration. -/
structure ConfRequest.Holds (c : ConfRequest) (port : Termios) : Prop where
  stop : port.cCflag &&& cstopb ≠ 0 ↔ c.stopBits = 2
  parity : port.cCflag &&& parenb ≠ 0 ↔ c.OddParity ∨ c.EvenParity
  odd : port.cCflag &&& parenb ≠ 0 → (port.cCflag &&& parodd ≠ 0 ↔ c.OddParity)

/-- The two settings differ at most in the size of a character. -/
def SameButSize (port port' : Termios) : Prop :=
  port'.cCflag &&& ~~~csize = port.cCflag &&& ~~~csize ∧
    { port' with cCflag := port.cCflag } = port

/-- The settings after each call of a run: its data bits, the stop bits and the parity of the
last configuration, and what setting the data bits alone leaves as it was. -/
def SettingsTakeEffect (port : Termios) (requests : List SerialRequest) : Prop :=
  ∀ before request, before ++ [request] <+: requests →
    let current := serialRun port before
    let next := serialRun port (before ++ [request])
    next.cCflag &&& csize = dataBitsCode request.dataBits ∧
      (∀ c, lastConf (before ++ [request]) = some c → c.Holds next) ∧
      (∀ dataBits mem, request = .databits dataBits mem → SameButSize current next)

/-- The size set beforehand has no bit that the requested one lacks. `cfmakeraw` sets eight
data bits, whose code has both bits of the field. -/
def SizeFits (port : Termios) : SerialRequest → Prop
  | .conf c => c.dataBits = 8
  | .databits dataBits _ => port.cCflag &&& csize &&& ~~~dataBitsCode dataBits = 0

lemma serialRun_concat (port : Termios) (before : List SerialRequest) (request : SerialRequest) :
    serialRun port (before ++ [request]) = (request.perform (serialRun port before)).1 := by
  rw [serialRun, List.foldl_append]
  rfl

/-! ### The setters -/

lemma setDataBits_eq (options : Termios) (dataBits : Int32) :
    setDataBits options dataBits =
      { options with cCflag := options.cCflag ||| dataBitsCode dataBits } := by
  unfold setDataBits dataBitsCode
  repeat' split
  all_goals rfl

lemma dataBitsCode_and_csize (dataBits : Int32) :
    dataBitsCode dataBits &&& csize = dataBitsCode dataBits := by
  unfold dataBitsCode
  repeat' split
  all_goals decide

lemma dataBitsCode_and_of_disjoint {k : BitVec 32} (h : csize &&& k = 0) (dataBits : Int32) :
    dataBitsCode dataBits &&& k = 0 := by
  rw [← dataBitsCode_and_csize, BitVec.and_assoc, h]
  exact BitVec.and_zero

lemma setStopBits_and {k : BitVec 32} (h : cstopb &&& k = 0) (options : Termios)
    (stopBits : Int32) : (setStopBits options stopBits).cCflag &&& k = options.cCflag &&& k := by
  unfold setStopBits
  split
  · exact or_and_of_disjoint h
  · exact clear_and_of_disjoint h

lemma setStopBits_and_cstopb (options : Termios) (stopBits : Int32) :
    (setStopBits options stopBits).cCflag &&& cstopb ≠ 0 ↔ stopBits = 2 := by
  unfold setStopBits
  split
  case isTrue h =>
    rw [or_and_self]
    exact iff_of_true (by decide) h
  case isFalse h =>
    rw [clear_and_self]
    exact iff_of_false (fun hne => hne rfl) h

lemma setParity_odd {parity : UInt8} (h : Char.ofUInt8 parity ∈ ['o', 'O'])
    (options : Termios) :
    (setParity options parity).cCflag = options.cCflag ||| parenb ||| parodd := by
  simp only [List.mem_cons, List.not_mem_nil, or_false] at h
  unfold setParity
  rcases h with h | h
  all_goals simp only [h]

lemma setParity_even {parity : UInt8} (h : Char.ofUInt8 parity ∈ ['e', 'E'])
    (options : Termios) :
    (setParity options parity).cCflag = (options.cCflag ||| parenb) &&& ~~~parodd := by
  simp only [List.mem_cons, List.not_mem_nil, or_false] at h
  unfold setParity
  rcases h with h | h
  all_goals simp only [h]

lemma setParity_none {parity : UInt8} (h : Char.ofUInt8 parity ∈ ['n', 'N'])
    (options : Termios) :
    (setParity options parity).cCflag = options.cCflag &&& ~~~parenb := by
  simp only [List.mem_cons, List.not_mem_nil, or_false] at h
  unfold setParity
  rcases h with h | h
  all_goals
    rw [h]
    rfl

lemma ConfRequest.parity_cases (c : ConfRequest) :
    c.OddParity ∨ c.EvenParity ∨ Char.ofUInt8 c.parity ∈ ['n', 'N'] := by
  have h := c.parity_mem
  unfold ConfRequest.OddParity ConfRequest.EvenParity
  simp only [List.mem_cons, List.not_mem_nil, or_false] at h ⊢
  grind

lemma setParity_and (c : ConfRequest) {k : BitVec 32} (henable : parenb &&& k = 0)
    (hodd : parodd &&& k = 0) (options : Termios) :
    (setParity options c.parity).cCflag &&& k = options.cCflag &&& k := by
  rcases c.parity_cases with h | h | h
  · rw [setParity_odd h, or_and_of_disjoint hodd, or_and_of_disjoint henable]
  · rw [setParity_even h, clear_and_of_disjoint hodd, or_and_of_disjoint henable]
  · rw [setParity_none h, clear_and_of_disjoint henable]

lemma not_oddParity_of_even {c : ConfRequest} (h : c.EvenParity) : ¬c.OddParity := by
  have hchars : ∀ x ∈ ['e', 'E'], x ∉ ['o', 'O'] := by
    rw [← List.all_iff_forall_prop]
    decide
  exact hchars _ h

lemma not_parity_of_none {c : ConfRequest} (h : Char.ofUInt8 c.parity ∈ ['n', 'N']) :
    ¬(c.OddParity ∨ c.EvenParity) := by
  have hchars : ∀ x ∈ ['n', 'N'], ¬(x ∈ ['o', 'O'] ∨ x ∈ ['e', 'E']) := by
    rw [← List.all_iff_forall_prop]
    decide
  exact hchars _ h

lemma setParity_flags (c : ConfRequest) (options : Termios) :
    ((setParity options c.parity).cCflag &&& parenb ≠ 0 ↔ c.OddParity ∨ c.EvenParity) ∧
      ((setParity options c.parity).cCflag &&& parenb ≠ 0 →
        ((setParity options c.parity).cCflag &&& parodd ≠ 0 ↔ c.OddParity)) := by
  have hdisjoint : parodd &&& parenb = 0 := by decide
  rcases c.parity_cases with h | h | h
  · have henable : (setParity options c.parity).cCflag &&& parenb ≠ 0 := by
      rw [setParity_odd h, or_and_of_disjoint hdisjoint, or_and_self]
      decide
    have hodd : (setParity options c.parity).cCflag &&& parodd ≠ 0 := by
      rw [setParity_odd h, or_and_self]
      decide
    exact ⟨iff_of_true henable (Or.inl h), fun _ => iff_of_true hodd h⟩
  · have henable : (setParity options c.parity).cCflag &&& parenb ≠ 0 := by
      rw [setParity_even h, clear_and_of_disjoint hdisjoint, or_and_self]
      decide
    have heven : ¬(setParity options c.parity).cCflag &&& parodd ≠ 0 := by
      rw [setParity_even h, clear_and_self]
      exact fun hne => hne rfl
    exact ⟨iff_of_true henable (Or.inr h), fun _ => iff_of_false heven (not_oddParity_of_even h)⟩
  · have hdisabled : (setParity options c.parity).cCflag &&& parenb = 0 := by
      rw [setParity_none h, clear_and_self]
    exact ⟨iff_of_false (fun hne => hne hdisabled) (not_parity_of_none h),
      fun hne => absurd hdisabled hne⟩

/-! ### The calls -/

lemma getBaudrate_mem {speed : Int32} (h : speed ∈ mMapTable.map Prod.fst) :
    ∃ map ∈ mMapTable, getBaudrate speed = map.2 := by
  unfold getBaudrate
  cases hfind : mMapTable.find? fun map => map.1 = speed with
  | some map => exact ⟨map, List.mem_of_find?_eq_some hfind, rfl⟩
  | none =>
    obtain ⟨map, hmap, rfl⟩ := List.mem_map.mp h
    have hne := List.find?_eq_none.mp hfind map hmap
    exact absurd (decide_eq_true rfl) hne

lemma getBaudrate_supported {speed : Int32} (h : speed ∈ mMapTable.map Prod.fst) :
    ¬getBaudrate speed < 0 ∧ (getBaudrate speed).toBitVec ≠ 0 ∧
      (getBaudrate speed).toBitVec &&& csize = 0 := by
  obtain ⟨map, hmap, heq⟩ := getBaudrate_mem h
  have htable : ∀ map ∈ mMapTable,
      ¬map.2 < 0 ∧ map.2.toBitVec ≠ 0 ∧ map.2.toBitVec &&& csize = 0 := by
    rw [← List.all_iff_forall_prop]
    decide
  rw [heq]
  exact htable map hmap

/-- The control flags before `set_data_bits` is called. -/
def rawFlags (port : Termios) (speed : Int32) : BitVec 32 :=
  (cfsetospeed (cfsetispeed (cfmakeraw port) (getBaudrate speed).toBitVec)
    (getBaudrate speed).toBitVec).cCflag

lemma rawFlags_and_csize (port : Termios) {speed : Int32} (h : speed ∈ mMapTable.map Prod.fst) :
    rawFlags port speed &&& csize = cs8 := by
  obtain ⟨-, hzero, hbaud⟩ := getBaudrate_supported h
  have hcbaud : cbaud &&& csize = 0 := by decide
  unfold rawFlags cfsetospeed cfsetispeed cfmakeraw
  simp only
  rw [if_neg hzero, or_and_of_disjoint hbaud, clear_and_of_disjoint hcbaud,
    or_and_of_disjoint hbaud, clear_and_of_disjoint hcbaud]
  exact or_and_self

lemma perform_conf (port : Termios) (c : ConfRequest) :
    ∃ options : Termios, options.cCflag = rawFlags port c.speed ||| dataBitsCode c.dataBits ∧
      ((SerialRequest.conf c).perform port).1.cCflag =
        (setParity (setStopBits options c.stopBits) c.parity).cCflag := by
  have hsupported := (getBaudrate_supported c.speed_mem).1
  refine ⟨setDataBits (cfsetospeed (cfsetispeed (cfmakeraw port)
    (getBaudrate c.speed).toBitVec) (getBaudrate c.speed).toBitVec) c.dataBits, ?_, ?_⟩
  · rw [setDataBits_eq]
    rfl
  · unfold SerialRequest.perform serialSetConf
    simp only
    rw [if_neg hsupported]
    rfl

lemma perform_conf_and_csize (port : Termios) (c : ConfRequest) :
    ((SerialRequest.conf c).perform port).1.cCflag &&& csize = cs8 := by
  obtain ⟨options, hoptions, hperform⟩ := perform_conf port c
  have hall : ∀ x : BitVec 32, x &&& csize = x → cs8 ||| x = cs8 := by
    intro x hx
    rw [← hx, BitVec.or_comm]
    apply or_eq_right_iff.mpr
    rw [BitVec.and_assoc]
    exact BitVec.and_zero
  rw [hperform, setParity_and c (by decide) (by decide), setStopBits_and (by decide), hoptions,
    or_and_of_subset (dataBitsCode_and_csize _), rawFlags_and_csize port c.speed_mem]
  exact hall _ (dataBitsCode_and_csize _)

lemma perform_conf_holds (port : Termios) (c : ConfRequest) :
    c.Holds ((SerialRequest.conf c).perform port).1 := by
  obtain ⟨options, -, hperform⟩ := perform_conf port c
  have hparity := setParity_flags c (setStopBits options c.stopBits)
  rw [← hperform] at hparity
  refine ⟨?_, hparity.1, hparity.2⟩
  rw [hperform, setParity_and c (by decide) (by decide)]
  exact setStopBits_and_cstopb options c.stopBits

lemma perform_databits (port : Termios) (dataBits : Int32)
    (mem : dataBits ∈ ([5, 6, 7, 8] : List Int32)) :
    ((SerialRequest.databits dataBits mem).perform port).1 =
      { port with cCflag := port.cCflag ||| dataBitsCode dataBits } := by
  have hset := setDataBits_eq port dataBits
  exact hset

lemma sameButSize_databits (port : Termios) (dataBits : Int32)
    (mem : dataBits ∈ ([5, 6, 7, 8] : List Int32)) :
    SameButSize port ((SerialRequest.databits dataBits mem).perform port).1 := by
  rw [perform_databits]
  refine ⟨or_and_of_disjoint ?_, rfl⟩
  exact dataBitsCode_and_of_disjoint (by decide) dataBits

lemma ConfRequest.Holds.of_sameButSize {c : ConfRequest} {port port' : Termios}
    (h : c.Holds port) (hsame : SameButSize port port') : c.Holds port' := by
  have hflag : ∀ k : BitVec 32, csize &&& k = 0 → port'.cCflag &&& k = port.cCflag &&& k := by
    intro k hk
    have hmask : ~~~csize &&& k = k := not_and_of_disjoint hk
    rw [← hmask, ← BitVec.and_assoc, ← BitVec.and_assoc, hsame.1]
  have hstop := hflag cstopb (by decide)
  have hparity := hflag parenb (by decide)
  have hodd := hflag parodd (by decide)
  refine ⟨?_, ?_, ?_⟩
  · rw [hstop]
    exact h.stop
  · rw [hparity]
    exact h.parity
  · rw [hparity, hodd]
    exact h.odd

/-- The size is the requested one exactly when the one before it lets it be. -/
lemma perform_and_csize_iff (port : Termios) (request : SerialRequest) :
    (request.perform port).1.cCflag &&& csize = dataBitsCode request.dataBits ↔
      SizeFits port request := by
  cases request with
  | conf c =>
    have hcode : ∀ b ∈ ([5, 6, 7, 8] : List Int32), cs8 = dataBitsCode b ↔ b = 8 := by
      rw [← List.all_iff_forall_prop]
      decide
    rw [perform_conf_and_csize]
    exact hcode c.dataBits c.dataBits_mem
  | databits dataBits mem =>
    rw [perform_databits, or_and_of_subset (dataBitsCode_and_csize dataBits)]
    exact or_eq_right_iff

/-! ### Runs -/

lemma holds_foldl (requests : List SerialRequest) (last : Option ConfRequest) (port : Termios)
    (h : ∀ c, last = some c → c.Holds port) (c : ConfRequest)
    (hc : requests.foldl (fun last request =>
      match request with
      | .conf c => some c
      | .databits _ _ => last) last = some c) : c.Holds (serialRun port requests) := by
  induction requests generalizing last port with
  | nil => exact h c hc
  | cons request requests ih =>
    refine ih _ (request.perform port).1 ?_ hc
    intro c' hc'
    cases request with
    | conf c₁ =>
      cases hc'
      exact perform_conf_holds port c'
    | databits dataBits mem =>
      exact (h c' hc').of_sameButSize (sameButSize_databits port dataBits mem)

lemma holds_lastConf (port : Termios) (requests : List SerialRequest) (c : ConfRequest)
    (h : lastConf requests = some c) : c.Holds (serialRun port requests) := by
  refine holds_foldl requests none port ?_ c h
  intro c' hc'
  cases hc'

/-- The settings of a run take effect exactly when every configuration in it asks for eight
data bits and every change of the data bits alone finds no bit of the size set that it does
not set itself. -/
theorem settingsTakeEffect_iff (port : Termios) (requests : List SerialRequest) :
    SettingsTakeEffect port requests ↔
      ∀ before request, before ++ [request] <+: requests →
        SizeFits (serialRun port before) request := by
  constructor
  · intro h before request hrun
    have hsize := (h before request hrun).1
    rw [serialRun_concat] at hsize
    exact (perform_and_csize_iff _ request).mp hsize
  · intro h before request hrun
    refine ⟨?_, holds_lastConf port (before ++ [request]), ?_⟩
    · rw [serialRun_concat]
      exact (perform_and_csize_iff _ request).mpr (h before request hrun)
    · rintro dataBits mem rfl
      rw [serialRun_concat]
      exact sameButSize_databits _ dataBits mem

def clearTermios : Termios := ⟨0, 0, 0, 0, Vector.replicate 32 0, 0, 0⟩

def sevenDataBits : ConfRequest where
  speed := 9600
  dataBits := 7
  stopBits := 1
  parity := 110
  speed_mem := by decide
  dataBits_mem := by decide
  stopBits_mem := by decide
  parity_mem := by decide

/-- Seven data bits, one stop bit and no parity at 9600 baud leave eight data bits. -/
theorem seven_data_bits_become_eight :
    (serialRun clearTermios [.conf sevenDataBits]).cCflag &&& csize = cs8 ∧
      cs8 ≠ dataBitsCode sevenDataBits.dataBits ∧
      ¬SettingsTakeEffect clearTermios [.conf sevenDataBits] := by
  have hsize := perform_conf_and_csize clearTermios sevenDataBits
  have hne : cs8 ≠ dataBitsCode sevenDataBits.dataBits := by decide
  refine ⟨hsize, hne, ?_⟩
  intro h
  have hfirst := (h [] (.conf sevenDataBits) (List.prefix_refl _)).1
  exact hne (hsize.symm.trans hfirst)

end GeneralPurposeLibrary.Proofs
