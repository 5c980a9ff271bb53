import GeneralPurposeLibrary.Proofs.GpioFiles

/-!
# A pin is an input that may be armed or an output that is driven

Seen through `gpio_ctrl.c`, a pin whose direction can be changed is in one of two modes:
`gpio_ctrl_set_value` makes it an output of that level, `gpio_ctrl_set_edge` an input armed for
that edge, `gpio_base_unexport` disarms it, and a call on another pin leaves it alone. The
order of the writes matters in between: an armed pin is disarmed before it becomes an output,
so that at no time, also not between two writes of one call, is an output armed.
-/

namespace GeneralPurposeLibrary.Proofs
open CString DecimalText

inductive PinMode where
  | input (edge : PinEdge)
  | output (level : Bool)
  deriving DecidableEq, Repr

def PinMode.edge : PinMode → PinEdge
  | .input edge => edge
  | .output _ => .none

def PinMode.level (outside : Bool) : PinMode → Bool
  | .input _ => outside
  | .output level => level

def PinMode.disarmed : PinMode → PinMode
  | .input _ => .input .none
  | .output level => .output level

/-- What a call does to the mode of its pin. A code that is no edge, and any edge on a pin
that has none, leave an input as it is armed. -/
def modeStep (hasEdge : Bool) (mode : PinMode) : GpioCall → PinMode
  | .setValue _ value => .output (decide (value ≠ 0))
  | .getValue _ => mode
  | .setEdge _ edge =>
    .input (if hasEdge then (edgeOfCode edge).getD mode.edge else mode.edge)
  | .unexport _ => mode.disarmed

/-- What a call returns on a pin in this mode. -/
def modeReturn (outside : Bool) (mode : PinMode) : GpioCall → Int32
  | .getValue _ => Int32.ofInt (mode.level outside).toNat
  | .unexport _ => gpioBaseRetOk
  | _ => 0

def GpioCall.ngpio : GpioCall → Int32
  | .setValue ngpio _ => ngpio
  | .getValue ngpio => ngpio
  | .setEdge ngpio _ => ngpio
  | .unexport ngpio => ngpio

/-- The modes of pin `n` along the calls, and what the calls on it return; `none` stands for a
call on another pin. -/
def modeRun (hasEdge : Bool) (n : ℕ) :
    PinMode → List (GpioCall × (ℕ → Bool)) → List (Option Int32) × PinMode
  | mode, [] => ([], mode)
  | mode, (call, line) :: calls =>
    if (GpioCall.ngpio call).toInt = n then
      let (rets, last) := modeRun hasEdge n (modeStep hasEdge mode call) calls
      (some (modeReturn (line n) mode call) :: rets, last)
    else
      let (rets, last) := modeRun hasEdge n mode calls
      (none :: rets, last)

/-- A pin whose direction can be changed, that is armed only as an exported input with the
file for it. -/
structure Disarmed (p : GpioPin) : Prop where
  hasDirection : p.hasDirection = true
  output : p.direction = .output → p.edge = .none
  armed : p.edge ≠ .none → p.exported = true ∧ p.hasEdge = true

def GpioPin.mode (p : GpioPin) : PinMode :=
  match p.direction with
  | .input => .input p.edge
  | .output => .output p.driven

lemma GpioPin.level_eq (p : GpioPin) (outside : Bool) :
    GpioPin.level p outside = (GpioPin.mode p).level outside := by
  unfold GpioPin.level GpioPin.mode
  cases p.direction <;> rfl

section SetPins

variable {sys : GpioSysfs} {n m : ℕ} {p : GpioPin}

/-- Pin `n` takes these values one after the other. -/
def setPins (n : ℕ) (sys : GpioSysfs) (ps : List GpioPin) : GpioSysfs :=
  ps.foldl (fun sys p => sys.setPin n p) sys

lemma setPins_append (ps qs : List GpioPin) :
    setPins n sys (ps ++ qs) = setPins n (setPins n sys ps) qs := List.foldl_append

lemma pins_setPins (hp : sys.pins n = some p) (ps : List GpioPin) :
    (setPins n sys ps).pins n = some (ps.getLast?.getD p) := by
  induction ps generalizing sys p with
  | nil => exact hp
  | cons q ps ih =>
    have hq : (sys.setPin n q).pins n = some q := by simp [GpioSysfs.setPin]
    rw [setPins, List.foldl_cons, ← setPins, List.getLast?_cons, Option.getD_some]
    exact ih hq

lemma history_setPins (ps : List GpioPin) :
    (setPins n sys ps).history = sys.history ++ ps.map (fun p => (n, p)) := by
  induction ps generalizing sys with
  | nil => exact (List.append_nil _).symm
  | cons q ps ih =>
    rw [setPins, List.foldl_cons, ← setPins, ih, GpioSysfs.setPin, List.map_cons,
      List.append_assoc, List.singleton_append]

end SetPins

/-- Pin `n`, with the value `p`, gets to `q`, and no value on the way is an armed output. -/
def Evolves (n : ℕ) (sys : GpioSysfs) (p : GpioPin) (sys' : GpioSysfs) (q : GpioPin) : Prop :=
  ∃ ps, sys' = setPins n sys ps ∧ ps.getLast?.getD p = q ∧ ∀ r ∈ ps, Disarmed r

section Evolves

variable {sys sys₁ sys₂ : GpioSysfs} {n : ℕ} {p q r : GpioPin}

lemma Evolves.refl (n : ℕ) (sys : GpioSysfs) (p : GpioPin) : Evolves n sys p sys p :=
  ⟨[], rfl, rfl, fun _ h => nomatch h⟩

lemma Evolves.setPin (n : ℕ) (sys : GpioSysfs) (p : GpioPin) (hq : Disarmed q) :
    Evolves n sys p (sys.setPin n q) q := by
  refine ⟨[q], rfl, rfl, ?_⟩
  intro r hr
  rw [List.mem_singleton.mp hr]
  exact hq

lemma Evolves.trans (h₁ : Evolves n sys p sys₁ q) (h₂ : Evolves n sys₁ q sys₂ r) :
    Evolves n sys p sys₂ r := by
  obtain ⟨ps, rfl, hp, hps⟩ := h₁
  obtain ⟨qs, rfl, hq, hqs⟩ := h₂
  refine ⟨ps ++ qs, (setPins_append ps qs).symm, ?_, ?_⟩
  · rw [List.getLast?_append, ← hq, ← hp]
    cases qs.getLast? <;> rfl
  · intro s hs
    exact (List.mem_append.mp hs).elim (hps s) (hqs s)

lemma Evolves.pins (h : Evolves n sys p sys₁ q) (hp : sys.pins n = some p) :
    sys₁.pins n = some q := by
  obtain ⟨ps, rfl, hq, -⟩ := h
  rw [pins_setPins hp, hq]

lemma Evolves.disarmed (h : Evolves n sys p sys₁ q) (hp : Disarmed p) : Disarmed q := by
  obtain ⟨ps, -, hq, hps⟩ := h
  cases hlast : ps.getLast? with
  | none =>
    rw [hlast] at hq
    rw [← hq]
    exact hp
  | some r =>
    rw [hlast] at hq
    rw [← hq]
    exact hps r (List.mem_of_getLast? hlast)

end Evolves

section Calls

variable (guards : Bool) (line : ℕ → Bool) {sys : GpioSysfs} {ngpio : Int32} {n : ℕ} {p : GpioPin}

/-- The pin once it is exported. -/
def GpioPin.whenExported (p : GpioPin) : GpioPin :=
  if p.exported then p else { p with exported := true, edge := .none }

lemma Disarmed.whenExported (h : Disarmed p) :
    Disarmed (GpioPin.whenExported p) ∧ (GpioPin.whenExported p).exported = true ∧
      (GpioPin.whenExported p).hasEdge = p.hasEdge ∧
      GpioPin.mode (GpioPin.whenExported p) = GpioPin.mode p := by
  unfold GpioPin.whenExported
  by_cases hexported : p.exported = true
  · rw [if_pos hexported]
    exact ⟨h, hexported, rfl, rfl⟩
  · have hedge : p.edge = .none := by
      by_contra harmed
      exact hexported (h.armed harmed).1
    rw [if_neg hexported]
    refine ⟨⟨h.hasDirection, fun _ => rfl, fun harmed => absurd rfl harmed⟩, rfl, rfl, ?_⟩
    unfold GpioPin.mode
    rw [hedge]

lemma exportIfMissing_evolves (hn : ngpio.toInt = n) (hp : sys.pins n = some p)
    (h : Disarmed p) :
    Evolves n sys p (exportIfMissing guards sys ngpio) (GpioPin.whenExported p) := by
  have hok := h.whenExported.1
  rw [exportIfMissing_eq_changeNumbered guards, changeNumbered_eq hn]
  unfold GpioPin.whenExported at hok ⊢
  by_cases hexported : p.exported = true
  · rw [change_of_none hp (by rw [GpioPin.storeExport, if_pos hexported]), if_pos hexported]
    exact Evolves.refl n sys p
  · rw [if_neg hexported] at hok ⊢
    rw [change_of_some hp (by rw [GpioPin.storeExport, if_neg hexported])]
    exact Evolves.setPin n sys p hok

lemma disarm_evolves (hn : ngpio.toInt = n) (hp : sys.pins n = some p) (h : Disarmed p)
    (hexported : p.exported = true) :
    Evolves n sys p
      (if gpioEdgeNone ≠ gpioBaseGetEdge line sys ngpio then
        (gpioBaseSetEdge guards sys ngpio gpioEdgeNone).2 else sys) { p with edge := .none } := by
  have hsame : p.edge = .none → { p with edge := .none } = p := by
    intro hnone
    rw [← hnone]
  by_cases hedge : p.hasEdge = true
  · rw [gpioBaseGetEdge_eq line hn hp hexported hedge]
    by_cases hnone : p.edge = .none
    · rw [hsame hnone, hnone, if_neg (by decide)]
      exact Evolves.refl n sys p
    · have hcode : gpioEdgeNone ≠ edgeCode p.edge := by
        cases he : p.edge with
        | none => exact absurd he hnone
        | rising => decide
        | falling => decide
        | both => decide
      have hset := gpioBaseSetEdge_eq guards hn hp hexported hedge .none
      have hstore : p.storeEdge guards (PinEdge.text .none) = some { p with edge := .none } := by
        have hfind : [PinEdge.none, .rising, .falling, .both].find?
            (fun e => decide (PinEdge.text .none = e.text)) = some .none := by decide
        rw [GpioPin.storeEdge, hfind]
        exact if_neg (fun hrefused => hrefused.2.2 rfl)
      have hok : Disarmed { p with edge := .none } :=
        ⟨h.hasDirection, fun _ => rfl, fun harmed => absurd rfl harmed⟩
      rw [if_pos hcode]
      change Evolves n sys p (gpioBaseSetEdge guards sys ngpio (edgeCode .none)).2 _
      rw [hset, change_of_some hp hstore]
      exact Evolves.setPin n sys p hok
  · have hnone : p.edge = .none := by
      by_contra harmed
      exact hedge (h.armed harmed).2
    rw [gpioBaseSetEdge_missing guards hn hp (by simpa using hedge), ite_self, hsame hnone]
    exact Evolves.refl n sys p

lemma setOutput_evolves (hn : ngpio.toInt = n) (hp : sys.pins n = some p) (h : Disarmed p)
    (hexported : p.exported = true) (hedge : p.edge = .none) :
    Evolves n sys p (gpioBaseSetDirection guards sys ngpio gpioDirOutput).2
      { p with direction := .output, driven := false } := by
  have hset := gpioBaseSetDirection_eq guards hn hp hexported h.hasDirection .output
  have hstore : p.storeDirection guards (PinDirection.text .output) =
      some { p with direction := .output, driven := false } := by
    rw [GpioPin.storeDirection, if_neg (by decide), if_pos rfl]
    exact if_neg (fun hrefused => hrefused.2 hedge)
  change Evolves n sys p (gpioBaseSetDirection guards sys ngpio (directionCode .output)).2 _
  rw [hset, change_of_some hp hstore]
  exact Evolves.setPin n sys p ⟨h.hasDirection, fun _ => hedge, h.armed⟩

lemma setInput_evolves (hn : ngpio.toInt = n) (hp : sys.pins n = some p) (h : Disarmed p)
    (hexported : p.exported = true) :
    Evolves n sys p (gpioBaseSetDirection guards sys ngpio gpioDirInput).2
      { p with direction := .input } := by
  have hset := gpioBaseSetDirection_eq guards hn hp hexported h.hasDirection .input
  have hstore : p.storeDirection guards (PinDirection.text .input) =
      some { p with direction := .input } := by
    rw [GpioPin.storeDirection, if_pos rfl]
  change Evolves n sys p (gpioBaseSetDirection guards sys ngpio (directionCode .input)).2 _
  rw [hset, change_of_some hp hstore]
  exact Evolves.setPin n sys p ⟨h.hasDirection, fun hout => absurd hout (by simp), h.armed⟩

lemma setValue_evolves (hn : ngpio.toInt = n) (hp : sys.pins n = some p) (h : Disarmed p)
    (hexported : p.exported = true) (hdir : p.direction = .output) (value : Int32) :
    Evolves n sys p (gpioBaseSetValue guards sys ngpio value).2
      { p with driven := decide (value ≠ 0) } := by
  have hnonzero : decide (value.toInt ≠ 0) = decide (value ≠ 0) := by
    have hzero : value.toInt = 0 ↔ value = 0 := by
      rw [← Int32.toInt_zero, Int32.toInt_inj]
    simp only [ne_eq, hzero]
  have hstore : p.storeValue (intText value.toInt) =
      some { p with driven := decide (value ≠ 0) } := by
    rw [GpioPin.storeValue, hdir, kstrtol_intText]
    dsimp only [Option.map_some]
    rw [hnonzero]
  rw [gpioBaseSetValue_eq guards hn hp hexported, change_of_some hp hstore]
  exact Evolves.setPin n sys p ⟨h.hasDirection, h.output, h.armed⟩

lemma edgeOfCode_cases (edge : UInt32) :
    (edge ≥ gpioEdgeButt ∧ edgeOfCode edge = none) ∨
      ∃ e, edge = edgeCode e ∧ edgeOfCode edge = some e := by
  by_cases hbutt : edge ≥ gpioEdgeButt
  · refine .inl ⟨hbutt, ?_⟩
    have hne : ∀ e, edge ≠ edgeCode e := by
      rintro e rfl
      cases e <;> exact absurd hbutt (by decide)
    simp [edgeOfCode, hne]
  · have hlt : edge.toNat < 4 := by
      simpa [gpioEdgeButt, UInt32.le_iff_toNat_le] using hbutt
    have hcode : ∃ e, edge = edgeCode e := by
      have hof : edge = UInt32.ofNat edge.toNat := (UInt32.ofNat_toNat).symm
      rw [hof]
      generalize edge.toNat = k at hlt
      match k, hlt with
      | 0, _ => exact ⟨.none, rfl⟩
      | 1, _ => exact ⟨.rising, rfl⟩
      | 2, _ => exact ⟨.falling, rfl⟩
      | 3, _ => exact ⟨.both, rfl⟩
    obtain ⟨e, rfl⟩ := hcode
    refine .inr ⟨e, rfl, ?_⟩
    cases e <;> decide

lemma setEdge_evolves (hn : ngpio.toInt = n) (hp : sys.pins n = some p) (h : Disarmed p)
    (hexported : p.exported = true) (hdir : p.direction = .input) (edge : UInt32) :
    Evolves n sys p (gpioBaseSetEdge guards sys ngpio edge).2
      { p with edge := if p.hasEdge then (edgeOfCode edge).getD p.edge else p.edge } := by
  by_cases hedge : p.hasEdge = true
  · rw [if_pos hedge]
    rcases edgeOfCode_cases edge with ⟨hbutt, hnone⟩ | ⟨e, rfl, hsome⟩
    · rw [gpioBaseSetEdge_illegal guards hbutt, hnone]
      exact Evolves.refl n sys p
    · have hstore : p.storeEdge guards e.text = some { p with edge := e } := by
        have hfind : [PinEdge.none, .rising, .falling, .both].find?
            (fun e' => decide (e.text = e'.text)) = some e := by
          cases e <;> decide
        rw [GpioPin.storeEdge, hfind]
        exact if_neg (fun hrefused => by rw [hdir] at hrefused; exact nomatch hrefused.2.1)
      have hok : Disarmed { p with edge := e } := by
        refine ⟨h.hasDirection, ?_, fun _ => ⟨hexported, hedge⟩⟩
        intro hout
        rw [hdir] at hout
        cases hout
      rw [gpioBaseSetEdge_eq guards hn hp hexported hedge, change_of_some hp hstore, hsome]
      exact Evolves.setPin n sys p hok
  · rw [gpioBaseSetEdge_missing guards hn hp (by simpa using hedge), if_neg hedge]
    exact Evolves.refl n sys p

lemma gpioCtrlSetValue_evolves (hn : ngpio.toInt = n) (hp : sys.pins n = some p)
    (h : Disarmed p) (value : Int32) :
    ∃ q, Evolves n sys p (gpioCtrlSetValue guards line sys ngpio value).2 q ∧
      q.hasEdge = p.hasEdge ∧ GpioPin.mode q = .output (decide (value ≠ 0)) := by
  obtain ⟨hok₁, hexported, hedge₁, -⟩ := h.whenExported
  have h₁ := exportIfMissing_evolves guards hn hp h
  have hp₁ := h₁.pins hp
  have hget := gpioBaseGetDirection_eq line hn hp₁ hexported hok₁.hasDirection
  rw [← hedge₁]
  generalize GpioPin.whenExported p = p₁ at *
  unfold gpioCtrlSetValue
  dsimp only
  rw [hget]
  cases hdir : p₁.direction with
  | input =>
    rw [if_pos (by decide)]
    have h₂ := disarm_evolves guards line hn hp₁ hok₁ hexported
    have hp₂ := h₂.pins hp₁
    have hok₂ := h₂.disarmed hok₁
    have h₃ := setOutput_evolves guards hn hp₂ hok₂ hexported rfl
    have hp₃ := h₃.pins hp₂
    have hok₃ := h₃.disarmed hok₂
    have h₄ := setValue_evolves guards hn hp₃ hok₃ hexported rfl value
    exact ⟨_, h₁.trans (h₂.trans (h₃.trans h₄)), rfl, rfl⟩
  | output =>
    rw [if_neg (by decide)]
    have h₂ := setValue_evolves guards hn hp₁ hok₁ hexported hdir value
    refine ⟨_, h₁.trans h₂, rfl, ?_⟩
    unfold GpioPin.mode
    dsimp only
    rw [hdir]

lemma gpioCtrlSetEdge_evolves (hn : ngpio.toInt = n) (hp : sys.pins n = some p)
    (h : Disarmed p) (edge : UInt32) :
    ∃ q, Evolves n sys p (gpioCtrlSetEdge guards line sys ngpio edge).2 q ∧
      q.hasEdge = p.hasEdge ∧
      GpioPin.mode q = .input (if p.hasEdge then (edgeOfCode edge).getD (GpioPin.mode p).edge
        else (GpioPin.mode p).edge) := by
  obtain ⟨hok₁, hexported, hedge₁, hmode₁⟩ := h.whenExported
  have h₁ := exportIfMissing_evolves guards hn hp h
  have hp₁ := h₁.pins hp
  have hget := gpioBaseGetDirection_eq line hn hp₁ hexported hok₁.hasDirection
  rw [← hedge₁, ← hmode₁]
  generalize GpioPin.whenExported p = p₁ at *
  unfold gpioCtrlSetEdge
  dsimp only
  rw [hget]
  cases hdir : p₁.direction with
  | input =>
    have hmode : GpioPin.mode p₁ = .input p₁.edge := by rw [GpioPin.mode, hdir]
    have h₂ := setEdge_evolves guards hn hp₁ hok₁ hexported hdir edge
    rw [if_neg (by decide), hmode]
    refine ⟨_, h₁.trans h₂, rfl, ?_⟩
    unfold GpioPin.mode
    dsimp only
    rw [hdir]
    rfl
  | output =>
    have hmode : (GpioPin.mode p₁).edge = p₁.edge := by
      rw [GpioPin.mode, hdir, hok₁.output hdir]
      rfl
    have h₂ := setInput_evolves guards hn hp₁ hok₁ hexported
    have hp₂ := h₂.pins hp₁
    have hok₂ := h₂.disarmed hok₁
    have h₃ := setEdge_evolves guards hn hp₂ hok₂ hexported rfl edge
    rw [if_pos (by decide), hmode]
    exact ⟨_, h₁.trans (h₂.trans h₃), rfl, rfl⟩

lemma gpioCtrlGetValue_evolves (hn : ngpio.toInt = n) (hp : sys.pins n = some p)
    (h : Disarmed p) :
    ∃ q, Evolves n sys p (gpioCtrlGetValue guards line sys ngpio).2 q ∧
      q.hasEdge = p.hasEdge ∧ GpioPin.mode q = GpioPin.mode p ∧
      (gpioCtrlGetValue guards line sys ngpio).1 =
        Int32.ofInt ((GpioPin.mode p).level (line n)).toNat := by
  obtain ⟨-, hexported, hedge₁, hmode₁⟩ := h.whenExported
  have h₁ := exportIfMissing_evolves guards hn hp h
  refine ⟨_, h₁, hedge₁, hmode₁, ?_⟩
  unfold gpioCtrlGetValue
  dsimp only
  rw [gpioBaseGetValue_eq line hn (h₁.pins hp) hexported, GpioPin.level_eq, hmode₁]

lemma gpioBaseUnexport_evolves (hn : ngpio.toInt = n) (hp : sys.pins n = some p)
    (h : Disarmed p) :
    ∃ q, Evolves n sys p (gpioBaseUnexport guards sys ngpio).2 q ∧
      q.hasEdge = p.hasEdge ∧ GpioPin.mode q = (GpioPin.mode p).disarmed := by
  rw [gpioBaseUnexport_eq_changeNumbered guards, changeNumbered_eq hn]
  by_cases hexported : p.exported = true
  · have hok : Disarmed { p with exported := false, edge := .none } :=
      ⟨h.hasDirection, fun _ => rfl, fun harmed => absurd rfl harmed⟩
    rw [change_of_some hp (by rw [GpioPin.storeUnexport, if_pos hexported])]
    refine ⟨_, Evolves.setPin n sys p hok, rfl, ?_⟩
    unfold GpioPin.mode
    dsimp only
    cases p.direction <;> rfl
  · have hedge : p.edge = .none := by
      by_contra harmed
      exact hexported (h.armed harmed).1
    rw [change_of_none hp (by rw [GpioPin.storeUnexport, if_neg hexported])]
    refine ⟨p, Evolves.refl n sys p, rfl, ?_⟩
    unfold GpioPin.mode
    rw [hedge]
    cases p.direction <;> rfl

/-- The pin of a call moves to the next mode, and the call returns what the mode says. -/
lemma gpioCall_evolves {call : GpioCall} (hn : (GpioCall.ngpio call).toInt = n)
    (hp : sys.pins n = some p) (h : Disarmed p) :
    ∃ q, Evolves n sys p (gpioCall guards line sys call).2 q ∧ q.hasEdge = p.hasEdge ∧
      GpioPin.mode q = modeStep p.hasEdge (GpioPin.mode p) call ∧
      (gpioCall guards line sys call).1 = modeReturn (line n) (GpioPin.mode p) call := by
  cases call with
  | getValue ngpio => exact gpioCtrlGetValue_evolves guards line hn hp h
  | setValue ngpio value =>
    obtain ⟨q, hq, hedge, hmode⟩ := gpioCtrlSetValue_evolves guards line hn hp h value
    exact ⟨q, hq, hedge, hmode, rfl⟩
  | setEdge ngpio edge =>
    obtain ⟨q, hq, hedge, hmode⟩ := gpioCtrlSetEdge_evolves guards line hn hp h edge
    exact ⟨q, hq, hedge, hmode, rfl⟩
  | unexport ngpio =>
    obtain ⟨q, hq, hedge, hmode⟩ := gpioBaseUnexport_evolves guards hn hp h
    have hret : (gpioBaseUnexport guards sys ngpio).1 = gpioBaseRetOk := by
      rw [gpioBaseUnexport_eq_changeNumbered guards]
    exact ⟨q, hq, hedge, hmode, hret⟩

end Calls

/-! ### Calls on other pins -/

/-- Pin `n` was not written to. -/
def Untouched (n : ℕ) (sys sys' : GpioSysfs) : Prop :=
  sys'.pins n = sys.pins n ∧ ∀ p, (n, p) ∈ sys'.history → (n, p) ∈ sys.history

section Untouched

variable (guards : Bool) (line : ℕ → Bool) {sys sys₁ sys₂ : GpioSysfs} {ngpio : Int32} {n m : ℕ}

lemma Untouched.refl (n : ℕ) (sys : GpioSysfs) : Untouched n sys sys := ⟨rfl, fun _ h => h⟩

lemma Untouched.trans (h₁ : Untouched n sys sys₁) (h₂ : Untouched n sys₁ sys₂) :
    Untouched n sys sys₂ :=
  ⟨h₂.1.trans h₁.1, fun p h => h₁.2 p (h₂.2 p h)⟩

lemma untouched_change (hnm : n ≠ m) (store : GpioPin → Option GpioPin) :
    Untouched n sys (sys.change m store) := by
  unfold GpioSysfs.change
  split
  · exact Untouched.refl n sys
  · rename_i q _
    refine ⟨Function.update_of_ne hnm _ _, ?_⟩
    intro p hp
    rcases List.mem_append.mp hp with h | h
    · exact h
    · exact absurd (Prod.mk.inj (List.mem_singleton.mp h)).1 hnm

lemma untouched_write (hnm : n ≠ m) {name : List UInt8} {file : GpioFile}
    (hfile : pinFile m name = some file) (out : List UInt8) :
    Untouched n sys (sys.write guards out file) := by
  unfold pinFile at hfile
  split at hfile
  · cases hfile
    exact Untouched.refl n sys
  split at hfile
  · cases hfile
    exact untouched_change hnm _
  split at hfile
  · cases hfile
    exact untouched_change hnm _
  split at hfile
  · cases hfile
    exact untouched_change hnm _
  · cases hfile

lemma untouched_storeFile (hn : ngpio.toInt ≠ n) {name : List UInt8} (hname : name ∈ fileNames)
    (out : List UInt8) : Untouched n sys (storeFile guards sys (pinPath ngpio name) out).2 := by
  cases hm : ngpio.toInt with
  | negSucc k =>
    rw [storeFile_pinPath_neg guards hm hname]
    exact Untouched.refl n sys
  | ofNat m =>
    have hnm : n ≠ m := by
      rintro rfl
      exact hn hm
    cases hfile : pinFile m name with
    | none =>
      have hmissing : sys.openFile (text (snprintfStr (pinPath ngpio name))) = none := by
        rw [text_pinPath hname, GpioSysfs.openFile, resolve_pinPath hname,
          show ngpio.toInt = (m : ℤ) from hm, pinOfName_intText, Option.bind_some, hfile]
        rfl
      rw [storeFile, hmissing]
      exact Untouched.refl n sys
    | some file =>
      rw [storeFile, openFile_pinPath hm hname hfile]
      cases sys.has file with
      | false => exact Untouched.refl n sys
      | true => exact untouched_write guards hnm hfile _

lemma untouched_changeNumbered (hn : ngpio.toInt ≠ n) (store : GpioPin → Option GpioPin) :
    Untouched n sys (sys.changeNumbered (intText ngpio.toInt) store) := by
  cases hm : ngpio.toInt with
  | negSucc k =>
    rw [← hm, changeNumbered_neg hm]
    exact Untouched.refl n sys
  | ofNat m =>
    rw [← hm, changeNumbered_eq hm]
    apply untouched_change
    rintro rfl
    exact hn hm

lemma untouched_export (hn : ngpio.toInt ≠ n) :
    Untouched n sys (exportIfMissing guards sys ngpio) := by
  rw [exportIfMissing_eq_changeNumbered guards]
  exact untouched_changeNumbered hn _

lemma untouched_setDirection (hn : ngpio.toInt ≠ n) (dir : UInt32) :
    Untouched n sys (gpioBaseSetDirection guards sys ngpio dir).2 := by
  unfold gpioBaseSetDirection
  split
  · exact Untouched.refl n sys
  · exact untouched_storeFile guards hn (by decide) _

lemma untouched_setEdge (hn : ngpio.toInt ≠ n) (edge : UInt32) :
    Untouched n sys (gpioBaseSetEdge guards sys ngpio edge).2 := by
  unfold gpioBaseSetEdge
  split
  · exact Untouched.refl n sys
  · exact untouched_storeFile guards hn (by decide) _

lemma untouched_setValue (hn : ngpio.toInt ≠ n) (value : Int32) :
    Untouched n sys (gpioBaseSetValue guards sys ngpio value).2 := by
  unfold gpioBaseSetValue
  exact untouched_storeFile guards hn (by decide) _

lemma untouched_if {c : Prop} [Decidable c] (h₁ : Untouched n sys sys₁) :
    Untouched n sys (if c then sys₁ else sys) := by
  split
  · exact h₁
  · exact Untouched.refl n sys

lemma untouched_gpioCall {call : GpioCall} (hn : (GpioCall.ngpio call).toInt ≠ n) :
    Untouched n sys (gpioCall guards line sys call).2 := by
  cases call with
  | getValue ngpio =>
    unfold gpioCall gpioCtrlGetValue
    dsimp only
    exact untouched_export guards hn
  | setValue ngpio value =>
    unfold gpioCall gpioCtrlSetValue
    dsimp only
    refine ((untouched_export guards hn).trans ?_).trans (untouched_setValue guards hn value)
    apply untouched_if
    refine Untouched.trans ?_ (untouched_setDirection guards hn gpioDirOutput)
    exact untouched_if (untouched_setEdge guards hn gpioEdgeNone)
  | setEdge ngpio edge =>
    unfold gpioCall gpioCtrlSetEdge
    dsimp only
    refine ((untouched_export guards hn).trans ?_).trans (untouched_setEdge guards hn edge)
    exact untouched_if (untouched_setDirection guards hn gpioDirInput)
  | unexport ngpio =>
    unfold gpioCall
    dsimp only
    rw [gpioBaseUnexport_eq_changeNumbered guards]
    exact untouched_changeNumbered hn _

end Untouched

/-- Along any calls on any pins, a pin whose direction can be changed follows its modes: it ends
in the mode that `modeRun` computes and the calls on it return what the modes say, whether or
not the kernel guards its pins. No write ever leaves it an armed output. -/
theorem gpio_calls_follow_modes (guards : Bool) (n : ℕ) (calls : List (GpioCall × (ℕ → Bool)))
    (sys : GpioSysfs) (p : GpioPin) (hp : sys.pins n = some p) (h : Disarmed p) :
    (∃ q, (gpioCalls guards sys calls).2.pins n = some q ∧ Disarmed q ∧
      GpioPin.mode q = (modeRun p.hasEdge n (GpioPin.mode p) calls).2) ∧
    List.Forall₂ (fun ret expected => ∀ value ∈ expected, ret = value)
      (gpioCalls guards sys calls).1 (modeRun p.hasEdge n (GpioPin.mode p) calls).1 ∧
    ∀ r, (n, r) ∈ (gpioCalls guards sys calls).2.history → (n, r) ∈ sys.history ∨ Disarmed r := by
  induction calls generalizing sys p with
  | nil => exact ⟨⟨p, hp, h, rfl⟩, .nil, fun r hr => .inl hr⟩
  | cons event calls ih =>
    obtain ⟨call, line⟩ := event
    rw [gpioCalls, modeRun]
    dsimp only
    by_cases hn : (GpioCall.ngpio call).toInt = n
    · obtain ⟨q, hq, hedge, hmode, hret⟩ :=
        gpioCall_evolves guards line hn hp h
      obtain ⟨hend, hrets, hhistory⟩ := ih _ q (hq.pins hp) (hq.disarmed h)
      rw [hedge, hmode] at hend hrets
      rw [if_pos hn]
      refine ⟨hend, .cons ?_ hrets, ?_⟩
      · intro value hvalue
        rw [hret]
        exact Option.some.inj hvalue
      · intro r hr
        rcases hhistory r hr with hold | hnew
        · obtain ⟨ps, hps, -, hok⟩ := hq
          rw [hps, history_setPins, List.mem_append] at hold
          rcases hold with hold | hold
          · exact .inl hold
          · obtain ⟨r', hr', heq⟩ := List.mem_map.mp hold
            rw [← (Prod.mk.inj heq).2]
            exact .inr (hok r' hr')
        · exact .inr hnew
    · have hother : Untouched n sys (gpioCall guards line sys call).2 :=
        untouched_gpioCall guards line hn
      obtain ⟨hend, hrets, hhistory⟩ := ih _ p (hother.1.trans hp) h
      rw [if_neg hn]
      refine ⟨hend, .cons (fun value hvalue => nomatch hvalue) hrets, ?_⟩
      intro r hr
      exact (hhistory r hr).imp (hother.2 r) id

/-- An input with a file for its edge that nobody has exported. -/
def freshPin : GpioPin := ⟨false, true, true, .input, .none, false⟩

def benchPins : GpioSysfs := ⟨fun n => if n = 5 then some freshPin else none, []⟩

/-- Pin 5 is armed, driven high and read; pin 7 does not exist. -/
def benchCalls : List (GpioCall × (ℕ → Bool)) :=
  [(.setEdge 5 gpioEdgeBoth, fun _ => false), (.setEdge 7 gpioEdgeRising, fun _ => false),
    (.setValue 5 1, fun _ => false), (.getValue 5, fun _ => false)]

theorem gpio_armed_pin_is_driven_high :
    Disarmed freshPin ∧
      (∃ q, (gpioCalls false benchPins benchCalls).2.pins 5 = some q ∧
        GpioPin.mode q = .output true) ∧
      List.Forall₂ (fun ret expected => ∀ value ∈ expected, ret = value)
        (gpioCalls false benchPins benchCalls).1 [some 0, none, some 0, some 1] := by
  have hfresh : Disarmed freshPin := ⟨rfl, (fun h => nomatch h), fun h => absurd rfl h⟩
  have hrun : modeRun true 5 (.input .none) benchCalls =
      ([some 0, none, some 0, some 1], .output true) := by decide
  obtain ⟨⟨q, hq, -, hmode⟩, hrets, -⟩ :=
    gpio_calls_follow_modes false 5 benchCalls benchPins freshPin rfl hfresh
  change _ = (modeRun true 5 (.input .none) benchCalls).2 at hmode
  change List.Forall₂ _ _ (modeRun true 5 (.input .none) benchCalls).1 at hrets
  rw [hrun] at hmode hrets
  exact ⟨hfresh, ⟨q, hq, hmode⟩, hrets⟩

end GeneralPurposeLibrary.Proofs
