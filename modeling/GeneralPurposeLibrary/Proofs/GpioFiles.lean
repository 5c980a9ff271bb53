import GeneralPurposeLibrary.GpioCtrl
import Mathlib.Algebra.Order.Ring.Int

/-!
# The files of a pin

The paths that `gpio_base.c` prints are those the kernel keeps its pins under, and every text it
writes or reads fits in `str`. So each function of `gpio_base.c` changes or reads one pin, and
this file says which and how. `gpio_base_is_exist` passes `access` the permissions 0666, which
are no valid mode: it never finds a pin, and the callers export a pin each time.
-/

namespace GeneralPurposeLibrary.Proofs
open CString DecimalText

section Text

lemma isDigit_ne {b c : UInt8} (hb : isDigit b = true) (hc : isDigit c = false) : b ≠ c := by
  rintro rfl
  rw [hb] at hc
  cases hc

lemma notMem_intText {c : UInt8} (hdigit : isDigit c = false) (hminus : c ≠ 45) (z : ℤ) :
    c ∉ intText z := by
  intro hc
  cases z with
  | ofNat n => exact isDigit_ne (isDigit_of_mem_natText hc) hdigit rfl
  | negSucc n =>
    rcases List.mem_cons.mp hc with h | h
    · exact hminus h
    · exact isDigit_ne (isDigit_of_mem_natText h) hdigit rfl

lemma length_natText_le {n : ℕ} (hn : n < 10 ^ 10) : (natText n).length ≤ 10 := by
  rw [natText, List.length_map]
  exact (Nat.length_toDigits_le_iff (by decide) (by decide)).mpr hn

lemma length_intText_le (value : Int32) : (intText value.toInt).length ≤ 11 := by
  have hlow := value.le_toInt
  have hhigh := value.toInt_lt
  cases hz : value.toInt with
  | ofNat n =>
    rw [hz] at hhigh
    have hn : n < 10 ^ 10 := by
      have h : (n : ℤ) < 2 ^ 31 := hhigh
      omega
    exact Nat.le_succ_of_le (length_natText_le hn)
  | negSucc n =>
    rw [hz] at hlow
    have hn : n + 1 < 10 ^ 10 := by
      have h : -2 ^ 31 ≤ Int.negSucc n := hlow
      omega
    exact Nat.succ_le_succ (length_natText_le hn)

lemma snprintfStr_eq {s : List UInt8} (hlen : s.length ≤ 63) :
    snprintfStr s = s ++ List.replicate (64 - s.length) 0 := by
  rw [snprintfStr, List.take_of_length_le hlen]

lemma text_snprintfStr {s : List UInt8} (hlen : s.length ≤ 63) (hzero : 0 ∉ s) :
    text (snprintfStr s) = s := by
  rw [snprintfStr_eq hlen]
  exact (holds_zeros hzero (by omega)).text_eq

lemma take_snprintfStr {s : List UInt8} (hlen : s.length ≤ 63) :
    (snprintfStr s).take s.length = s := by
  rw [snprintfStr_eq hlen, List.take_left']
  rfl

end Text

section Paths

variable {ngpio : Int32} {name : List UInt8}

/-- The names of the files in the folder of a pin. -/
def fileNames : List (List UInt8) := [[], ascii "/direction", ascii "/edge", ascii "/value"]

lemma fileNames_bounds (hname : name ∈ fileNames) :
    name.length ≤ 10 ∧ 0 ∉ name ∧ (name.takeWhile fun b => decide (b ≠ 47)) = [] := by
  have hall : ∀ s ∈ fileNames, s.length ≤ 10 ∧ 0 ∉ s ∧
      (s.takeWhile fun b => decide (b ≠ 47)) = [] := by decide
  exact hall name hname

lemma text_pinPath (hname : name ∈ fileNames) :
    text (snprintfStr (pinPath ngpio name)) = pinPath ngpio name := by
  obtain ⟨hlen, hzero, -⟩ := fileNames_bounds hname
  have hnumber := length_intText_le ngpio
  have hdir : (gpioBaseDir ++ ascii "/gpio").length = 20 := by decide
  apply text_snprintfStr
  · rw [pinPath, List.length_append, List.length_append, hdir]
    omega
  · rw [pinPath, List.mem_append, List.mem_append]
    rintro ((h | h) | h)
    · exact absurd h (by decide)
    · exact notMem_intText (by decide) (by decide) _ h
    · exact hzero h

lemma resolve_pinPath (hname : name ∈ fileNames) :
    resolve (pinPath ngpio name) =
      (pinOfName (intText ngpio.toInt)).bind fun pin => pinFile pin name := by
  obtain ⟨-, -, hslash⟩ := fileNames_bounds hname
  have hpath : pinPath ngpio name =
      gpioBaseDir ++ (ascii "/gpio" ++ (intText ngpio.toInt ++ name)) := by
    rw [pinPath, List.append_assoc, List.append_assoc]
  have hexport : pinPath ngpio name ≠ gpioBaseDir ++ ascii "/export" := by
    rw [hpath]
    intro h
    have hsecond := congrArg (fun l => l[1]?) (List.append_cancel_left h)
    exact absurd hsecond (by simp [ascii, HexText.asciiByte])
  have hunexport : pinPath ngpio name ≠ gpioBaseDir ++ ascii "/unexport" := by
    rw [hpath]
    intro h
    have hsecond := congrArg (fun l => l[1]?) (List.append_cancel_left h)
    exact absurd hsecond (by simp [ascii, HexText.asciiByte])
  have hfolders : pinPath ngpio name =
      gpioBaseDir ++ ascii "/gpio" ++ (intText ngpio.toInt ++ name) := by
    rw [pinPath, List.append_assoc _ (intText ngpio.toInt)]
  have hnumber : ((intText ngpio.toInt ++ name).takeWhile fun b => decide (b ≠ 47)) =
      intText ngpio.toInt := by
    rw [List.takeWhile_append_of_pos, hslash, List.append_nil]
    intro b hb
    rw [decide_eq_true_iff]
    rintro rfl
    exact notMem_intText (by decide) (by decide) _ hb
  rw [resolve, if_neg hexport, if_neg hunexport]
  dsimp only
  rw [hfolders, List.take_left' rfl, if_pos rfl, List.drop_left' rfl, hnumber,
    List.drop_left' rfl]
  cases pinOfName (intText ngpio.toInt) <;> rfl

lemma pinOfName_intText (n : ℕ) : pinOfName (intText n) = some n := by
  have hread : scanNat (natText n ++ []) = some (n, []) :=
    scanNat_natText n (fun b hb => absurd hb (by simp))
  rw [List.append_nil] at hread
  change pinOfName (natText n) = some n
  rw [pinOfName, hread]
  exact if_pos rfl

lemma pinOfName_negSucc (n : ℕ) : pinOfName (intText (.negSucc n)) = none := by
  rw [intText, pinOfName, scanNat, if_neg (by decide)]

lemma kstrtol_intText (z : ℤ) : kstrtol (intText z) = some z := by
  have hread : scanInt ([] ++ (intText z ++ [])) = some (z, []) :=
    scanInt_intText z (fun b hb => absurd hb (by simp)) (fun b hb => absurd hb (by simp))
  rw [List.nil_append, List.append_nil] at hread
  rw [kstrtol, hread]

end Paths

section Files

variable (guards : Bool) (line : ℕ → Bool) {sys : GpioSysfs} {ngpio : Int32} {n : ℕ}
variable {name : List UInt8} {file : GpioFile}

lemma openFile_pinPath (hn : ngpio.toInt = n) (hname : name ∈ fileNames)
    (hfile : pinFile n name = some file) :
    sys.openFile (text (snprintfStr (pinPath ngpio name))) =
      if sys.has file then some file else none := by
  rw [text_pinPath hname, GpioSysfs.openFile, resolve_pinPath hname, hn, pinOfName_intText,
    Option.bind_some, hfile]
  rfl

lemma openFile_pinPath_neg {k : ℕ} (hn : ngpio.toInt = .negSucc k) (hname : name ∈ fileNames) :
    sys.openFile (text (snprintfStr (pinPath ngpio name))) = none := by
  rw [text_pinPath hname, GpioSysfs.openFile, resolve_pinPath hname, hn, pinOfName_negSucc]
  rfl

lemma storeFile_pinPath (hn : ngpio.toInt = n) (hname : name ∈ fileNames)
    (hfile : pinFile n name = some file) {out : List UInt8} (hout : out.length ≤ 63) :
    (storeFile guards sys (pinPath ngpio name) out).2 =
      if sys.has file then sys.write guards out file else sys := by
  rw [storeFile, openFile_pinPath hn hname hfile]
  cases sys.has file with
  | false => rfl
  | true =>
    change sys.write guards ((snprintfStr out).take out.length) file = _
    rw [take_snprintfStr hout]
    rfl

lemma storeFile_pinPath_neg {k : ℕ} (hn : ngpio.toInt = .negSucc k) (hname : name ∈ fileNames)
    (out : List UInt8) : (storeFile guards sys (pinPath ngpio name) out).2 = sys := by
  rw [storeFile, openFile_pinPath_neg hn hname]

lemma loadFile_pinPath (name : List UInt8) (hn : ngpio.toInt = n) (hname : name ∈ fileNames)
    (hfile : pinFile n name = some file) (hhas : sys.has file = true)
    (hlen : (sys.read line file).length ≤ 63) :
    loadFile line sys (pinPath ngpio name) =
      some (snprintfStr (sys.read line file), (sys.read line file).length) := by
  rw [loadFile, openFile_pinPath hn hname hfile, if_pos hhas]
  dsimp only
  rw [List.take_of_length_le (Nat.le_succ_of_le hlen), snprintfStr_eq hlen]

end Files

section Pins

variable (guards : Bool) (line : ℕ → Bool) {sys : GpioSysfs} {ngpio : Int32} {n : ℕ} {p : GpioPin}

/-- The code of `gpio_direction_e`. -/
def directionCode : PinDirection → UInt32
  | .input => gpioDirInput
  | .output => gpioDirOutput

/-- The code of `gpio_edge_e`. -/
def edgeCode : PinEdge → UInt32
  | .none => gpioEdgeNone
  | .rising => gpioEdgeRising
  | .falling => gpioEdgeFalling
  | .both => gpioEdgeBoth

/-- The edge that a `gpio_edge_e` stands for. -/
def edgeOfCode (edge : UInt32) : Option PinEdge :=
  [PinEdge.none, .rising, .falling, .both].find? fun e => decide (edge = edgeCode e)

/-- No pin is ever found: 0666 is not a mode of `access`. -/
lemma gpioBaseIsExist_eq_zero (sys : GpioSysfs) (ngpio : Int32) :
    gpioBaseIsExist sys ngpio = 0 := by
  have hrefused : ∀ path, sys.access path 0o666 = -1 := fun _ => if_pos (by decide)
  rw [gpioBaseIsExist, hrefused, if_neg (by decide)]

lemma gpioBaseGetDirection_eq (hn : ngpio.toInt = n) (hp : sys.pins n = some p)
    (hexported : p.exported = true) (hdir : p.hasDirection = true) :
    gpioBaseGetDirection line sys ngpio = directionCode p.direction := by
  have hhas : sys.has (.direction n) = true := by simp [GpioSysfs.has, hp, hexported, hdir]
  have hread : sys.read line (.direction n) = p.direction.text ++ [10] := by
    rw [GpioSysfs.read, hp]
  have hload := loadFile_pinPath line (ascii "/direction") hn (by decide) rfl hhas
  rw [hread] at hload
  unfold gpioBaseGetDirection
  cases hd : p.direction with
  | input =>
    rw [hd] at hload
    rw [hload (by decide)]
    decide
  | output =>
    rw [hd] at hload
    rw [hload (by decide)]
    decide

lemma gpioBaseGetEdge_eq (hn : ngpio.toInt = n) (hp : sys.pins n = some p)
    (hexported : p.exported = true) (hedge : p.hasEdge = true) :
    gpioBaseGetEdge line sys ngpio = edgeCode p.edge := by
  have hhas : sys.has (.edge n) = true := by simp [GpioSysfs.has, hp, hexported, hedge]
  have hread : sys.read line (.edge n) = p.edge.text ++ [10] := by
    rw [GpioSysfs.read, hp]
  have hload := loadFile_pinPath line (ascii "/edge") hn (by decide) rfl hhas
  rw [hread] at hload
  unfold gpioBaseGetEdge
  cases he : p.edge with
  | none =>
    rw [he] at hload
    rw [hload (by decide)]
    decide
  | rising =>
    rw [he] at hload
    rw [hload (by decide)]
    decide
  | falling =>
    rw [he] at hload
    rw [hload (by decide)]
    decide
  | both =>
    rw [he] at hload
    rw [hload (by decide)]
    decide

/-- The level that reading a pin shows. -/
def GpioPin.level (p : GpioPin) (outside : Bool) : Bool :=
  match p.direction with
  | .input => outside
  | .output => p.driven

lemma gpioBaseGetValue_eq (hn : ngpio.toInt = n) (hp : sys.pins n = some p)
    (hexported : p.exported = true) :
    gpioBaseGetValue line sys ngpio = Int32.ofInt (GpioPin.level p (line n)).toNat := by
  have hhas : sys.has (.value n) = true := by simp [GpioSysfs.has, hp, hexported]
  have hread : sys.read line (.value n) =
      natText (GpioPin.level p (line n)).toNat ++ [10] := by
    rw [GpioSysfs.read, hp]
    rfl
  have hload := loadFile_pinPath line (ascii "/value") hn (by decide) rfl hhas
  rw [hread] at hload
  unfold gpioBaseGetValue
  generalize GpioPin.level p (line n) = level at hload ⊢
  cases level with
  | false =>
    rw [hload (by decide)]
    decide
  | true =>
    rw [hload (by decide)]
    decide

lemma change_of_some {store : GpioPin → Option GpioPin} {q : GpioPin} (hp : sys.pins n = some p)
    (hstore : store p = some q) : sys.change n store = sys.setPin n q := by
  rw [GpioSysfs.change, hp, Option.bind_some, hstore]

lemma change_of_none {store : GpioPin → Option GpioPin} (hp : sys.pins n = some p)
    (hstore : store p = none) : sys.change n store = sys := by
  rw [GpioSysfs.change, hp, Option.bind_some, hstore]

lemma exportIfMissing_eq_changeNumbered :
    exportIfMissing guards sys ngpio =
      sys.changeNumbered (intText ngpio.toInt) GpioPin.storeExport := by
  have hfile : sys.openFile (text (snprintfStr exportPath)) = some .exportFile := by
    have hpath : resolve (text (snprintfStr exportPath)) = some .exportFile := by decide
    rw [GpioSysfs.openFile, hpath]
    rfl
  rw [exportIfMissing, if_pos (gpioBaseIsExist_eq_zero sys ngpio), gpioBaseExport, storeFile, hfile]
  dsimp only
  rw [take_snprintfStr (Nat.le_trans (length_intText_le ngpio) (by decide)), GpioSysfs.write]

lemma gpioBaseUnexport_eq_changeNumbered :
    gpioBaseUnexport guards sys ngpio =
      (gpioBaseRetOk, sys.changeNumbered (intText ngpio.toInt) GpioPin.storeUnexport) := by
  have hfile : sys.openFile (text (snprintfStr unexportPath)) = some .unexportFile := by
    have hpath : resolve (text (snprintfStr unexportPath)) = some .unexportFile := by decide
    rw [GpioSysfs.openFile, hpath]
    rfl
  rw [gpioBaseUnexport, storeFile, hfile]
  dsimp only
  rw [take_snprintfStr (Nat.le_trans (length_intText_le ngpio) (by decide)), GpioSysfs.write]

lemma changeNumbered_eq (hn : ngpio.toInt = n) (store : GpioPin → Option GpioPin) :
    sys.changeNumbered (intText ngpio.toInt) store = sys.change n store := by
  rw [GpioSysfs.changeNumbered, kstrtol_intText, hn]

lemma changeNumbered_neg {k : ℕ} (hn : ngpio.toInt = .negSucc k)
    (store : GpioPin → Option GpioPin) :
    sys.changeNumbered (intText ngpio.toInt) store = sys := by
  rw [GpioSysfs.changeNumbered, kstrtol_intText, hn]

lemma gpioBaseSetDirection_eq (hn : ngpio.toInt = n) (hp : sys.pins n = some p)
    (hexported : p.exported = true) (hdir : p.hasDirection = true) (d : PinDirection) :
    (gpioBaseSetDirection guards sys ngpio (directionCode d)).2 =
      sys.change n fun p => p.storeDirection guards d.text := by
  have hhas : sys.has (.direction n) = true := by simp [GpioSysfs.has, hp, hexported, hdir]
  have hstore : ∀ out : List UInt8, out.length ≤ 63 →
      (storeFile guards sys (pinPath ngpio (ascii "/direction")) out).2 =
        sys.change n fun p => p.storeDirection guards out := by
    intro out hout
    rw [storeFile_pinPath guards hn (by decide) rfl hout, if_pos hhas]
    rfl
  rw [gpioBaseSetDirection]
  cases d with
  | input =>
    rw [if_neg (by decide)]
    exact hstore (ascii "in") (by decide)
  | output =>
    rw [if_neg (by decide)]
    exact hstore (ascii "out") (by decide)

lemma gpioBaseSetEdge_eq (hn : ngpio.toInt = n) (hp : sys.pins n = some p)
    (hexported : p.exported = true) (hedge : p.hasEdge = true) (e : PinEdge) :
    (gpioBaseSetEdge guards sys ngpio (edgeCode e)).2 =
      sys.change n fun p => p.storeEdge guards e.text := by
  have hhas : sys.has (.edge n) = true := by simp [GpioSysfs.has, hp, hexported, hedge]
  have hstore : ∀ out : List UInt8, out.length ≤ 63 →
      (storeFile guards sys (pinPath ngpio (ascii "/edge")) out).2 =
        sys.change n fun p => p.storeEdge guards out := by
    intro out hout
    rw [storeFile_pinPath guards hn (by decide) rfl hout, if_pos hhas]
    rfl
  rw [gpioBaseSetEdge]
  cases e with
  | none =>
    rw [if_neg (by decide)]
    exact hstore (ascii "none") (by decide)
  | rising =>
    rw [if_neg (by decide)]
    exact hstore (ascii "rising") (by decide)
  | falling =>
    rw [if_neg (by decide)]
    exact hstore (ascii "falling") (by decide)
  | both =>
    rw [if_neg (by decide)]
    exact hstore (ascii "both") (by decide)

lemma gpioBaseSetEdge_missing (hn : ngpio.toInt = n) (hp : sys.pins n = some p)
    (hedge : p.hasEdge = false) (edge : UInt32) :
    (gpioBaseSetEdge guards sys ngpio edge).2 = sys := by
  have hhas : sys.has (.edge n) = false := by simp [GpioSysfs.has, hp, hedge]
  rw [gpioBaseSetEdge]
  by_cases hbutt : edge ≥ gpioEdgeButt
  · rw [if_pos hbutt]
  · rw [if_neg hbutt]
    dsimp only
    rw [storeFile, openFile_pinPath hn (by decide) rfl, if_neg (by simp [hhas])]

lemma gpioBaseSetEdge_illegal {edge : UInt32} (hedge : edge ≥ gpioEdgeButt) :
    (gpioBaseSetEdge guards sys ngpio edge).2 = sys := by
  rw [gpioBaseSetEdge, if_pos hedge]

lemma gpioBaseSetValue_eq (hn : ngpio.toInt = n) (hp : sys.pins n = some p)
    (hexported : p.exported = true) (value : Int32) :
    (gpioBaseSetValue guards sys ngpio value).2 =
      sys.change n fun p => p.storeValue (intText value.toInt) := by
  have hhas : sys.has (.value n) = true := by simp [GpioSysfs.has, hp, hexported]
  have hlen := length_intText_le value
  rw [gpioBaseSetValue, storeFile_pinPath guards hn (by decide) rfl (by omega), if_pos hhas]
  rfl

end Pins

end GeneralPurposeLibrary.Proofs
