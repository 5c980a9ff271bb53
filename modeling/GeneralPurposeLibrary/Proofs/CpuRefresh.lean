import GeneralPurposeLibrary.CpuUsage

/-!
# Which processor times are read

The kernel writes one line for each processor, and one for all of them together: a name, seven
times that `cpus_refresh` sums up and some more that it ignores. As `cpus_refresh` cuts lines of
more than 127 bytes, it takes the rest of such a line for a line of its own, which does not
start with `cpu`, and stops. This file says for every such file which line is found.
-/

namespace GeneralPurposeLibrary.Proofs
open CString DecimalText LineChunks

/-- The times of a line; `rest` are those behind `softirq`. -/
structure CpuRow where
  user : ℕ
  nice : ℕ
  sys : ℕ
  idle : ℕ
  iowait : ℕ
  irq : ℕ
  softirq : ℕ
  rest : List ℕ
  deriving DecidableEq, Repr

def CpuRow.first (row : CpuRow) : List ℕ :=
  [row.user, row.nice, row.sys, row.idle, row.iowait, row.irq, row.softirq]

def CpuRow.total (row : CpuRow) : ℕ := row.first.sum

/-- Each time behind a blank. -/
def timesText (times : List ℕ) : List UInt8 := times.flatMap fun n => 32 :: natText n

/-- The first word of a line: of one processor, or of all of them together. -/
def cpuWord : Option ℕ → List UInt8
  | none => ascii "cpu"
  | some i => ascii "cpu" ++ natText i

/-- The line of all processors has another blank behind its word. -/
def cpuGap : Option ℕ → List UInt8
  | none => [32]
  | some _ => []

/-- A line without its end. -/
def cpuLine (e : Option ℕ × CpuRow) : List UInt8 :=
  cpuWord e.1 ++ (cpuGap e.1 ++ timesText (e.2.first ++ e.2.rest))

/-- The lines of the processors, and what follows them. -/
def statText (more : List UInt8) : List (Option ℕ × CpuRow) → List UInt8
  | [] => ascii "intr " ++ more
  | e :: es => cpuLine e ++ 10 :: statText more es

def Names (id : Int32) : Option ℕ → Prop
  | none => id = -1
  | some i => id.toInt = i

instance (id : Int32) : DecidablePred (Names id)
  | none => inferInstanceAs (Decidable (id = -1))
  | some i => inferInstanceAs (Decidable (id.toInt = i))

/-- The first line for the id, unless a line of more than 127 bytes stands in front of it. -/
def visible (id : Int32) : List (Option ℕ × CpuRow) → Option (Option ℕ × CpuRow)
  | [] => none
  | e :: es =>
    if Names id e.1 then some e
    else if (cpuLine e).length ≤ 127 then visible id es
    else none

section Scanning

lemma text_append_of_zero_notMem {s t : List UInt8} (hs : 0 ∉ s) : text (s ++ t) = s ++ text t := by
  rw [text, List.takeWhile_append_of_pos]
  · rfl
  · intro b hb
    rw [decide_eq_true_iff]
    rintro rfl
    exact hs hb

lemma sscanfStat_word {word tail : List UInt8} (vars : StatVars) (hne : word ≠ [])
    (hword : ∀ b ∈ word, isSpace b = false ∧ b ≠ 0) (hlen : word.length < 32)
    (htail : ∀ b ∈ tail.head?, isSpace b = true) :
    sscanfStat vars (word ++ tail) = some ⟨word, scanTimes vars.times (text tail)⟩ := by
  have hzero : 0 ∉ word := fun h => (hword 0 h).2 rfl
  have htext := text_append_of_zero_notMem (t := tail) hzero
  obtain ⟨b, bs, rfl⟩ : ∃ b bs, word = b :: bs := List.exists_cons_of_ne_nil hne
  have hskip : skipSpace (b :: bs ++ text tail) = b :: bs ++ text tail :=
    skipSpace_of_not_space (hword b List.mem_cons_self).1 _
  have hstop : (text tail).takeWhile (fun b => !isSpace b) = [] := by
    cases tail with
    | nil => rfl
    | cons c cs =>
      have hc : isSpace c = true := htail c rfl
      rw [text]
      by_cases hzero : c = 0
      · rw [List.takeWhile_cons_of_neg (by simp [hzero])]
        rfl
      · rw [List.takeWhile_cons_of_pos (by simp [hzero]),
          List.takeWhile_cons_of_neg (by simp [hc])]
  have htake : (b :: bs ++ text tail).takeWhile (fun b => !isSpace b) = b :: bs := by
    rw [List.takeWhile_append_of_pos, hstop, List.append_nil]
    intro c hc
    simp [(hword c hc).1]
  rw [sscanfStat, htext]
  dsimp only
  rw [hskip, if_neg (by simp), htake, if_pos hlen, List.drop_left]

lemma head_timesText_append (times : List ℕ) {rest : List UInt8}
    (hrest : ∀ b ∈ rest.head?, isDigit b = false) :
    ∀ b ∈ (timesText times ++ rest).head?, isDigit b = false := by
  cases times with
  | nil => exact hrest
  | cons n times =>
    intro b hb
    rw [timesText, List.flatMap_cons] at hb
    rw [← Option.some.inj hb]
    decide

lemma scanTimes_timesText (olds : List Int64) (times : List ℕ) (hlen : olds.length = times.length)
    {rest : List UInt8} (hrest : ∀ b ∈ rest.head?, isDigit b = false) :
    scanTimes olds (timesText times ++ rest) = times.map fun (n : ℕ) => clampLong n := by
  induction olds generalizing times with
  | nil =>
    rw [List.eq_nil_of_length_eq_zero hlen.symm]
    rfl
  | cons old olds ih =>
    cases times with
    | nil => cases hlen
    | cons n times =>
      have hread : scanInt ([32] ++ (intText n ++ (timesText times ++ rest))) =
          some ((n : ℤ), timesText times ++ rest) :=
        scanInt_intText n (by simp [isSpace]) (head_timesText_append times hrest)
      have htext : timesText (n :: times) ++ rest =
          [32] ++ (intText n ++ (timesText times ++ rest)) := by
        rw [timesText, List.flatMap_cons, ← timesText]
        simp [intText]
      rw [htext, scanTimes, hread, List.map_cons]
      dsimp only
      rw [ih times (Nat.succ.inj hlen)]

lemma scanTimes_blank (olds : List Int64) (s : List UInt8) :
    scanTimes olds (32 :: s) = scanTimes olds s := by
  cases olds with
  | nil => rfl
  | cons old olds =>
    have hskip : skipSpace (32 :: s) = skipSpace s := by
      rw [skipSpace, List.dropWhile_cons_of_pos (by decide)]
      rfl
    rw [scanTimes, scanTimes, scanInt, hskip]
    rfl

end Scanning

section Lines

lemma length_scanTimes (olds : List Int64) (s : List UInt8) :
    (scanTimes olds s).length = olds.length := by
  induction olds generalizing s with
  | nil => rfl
  | cons old olds ih =>
    rw [scanTimes]
    split
    · rfl
    · rw [List.length_cons, List.length_cons, ih]

lemma mem_timesText {times : List ℕ} {b : UInt8} (hb : b ∈ timesText times) :
    b = 32 ∨ isDigit b = true := by
  obtain ⟨n, -, hn⟩ := List.mem_flatMap.mp hb
  rcases List.mem_cons.mp hn with h | h
  · exact .inl h
  · exact .inr (isDigit_of_mem_natText h)

lemma word_of_all {word : List UInt8} (h : word.all (fun b => !isSpace b && b != 0) = true) :
    ∀ b ∈ word, isSpace b = false ∧ b ≠ 0 := by
  intro b hb
  simpa using List.all_eq_true.mp h b hb

lemma cpuWord_spec (name : Option ℕ) (hname : ∀ i ∈ name, i < 2 ^ 31) :
    cpuWord name ≠ [] ∧ (∀ b ∈ cpuWord name, isSpace b = false ∧ b ≠ 0) ∧
      (cpuWord name).length < 32 := by
  have hdigit : ∀ b : UInt8, isDigit b = true → isSpace b = false ∧ b ≠ 0 := by
    intro b hb
    refine ⟨not_isSpace_of_isDigit hb, ?_⟩
    rintro rfl
    exact absurd hb (by decide)
  cases name with
  | none => exact ⟨by decide, word_of_all (by decide), by decide⟩
  | some i =>
    have hi : i < 10 ^ 10 := Nat.lt_trans (hname i rfl) (by decide)
    have hlen : (natText i).length ≤ 10 := by
      rw [natText, List.length_map]
      exact (Nat.length_toDigits_le_iff (by decide) (by decide)).mpr hi
    refine ⟨by simp [cpuWord, ascii], ?_, ?_⟩
    · intro b hb
      rcases List.mem_append.mp hb with h | h
      · exact word_of_all (by decide) b h
      · exact hdigit b (isDigit_of_mem_natText h)
    · rw [cpuWord, List.length_append, show (ascii "cpu").length = 3 from rfl]
      omega

lemma refreshLoop_step (info : CpusInfo) (vars : StatVars) (name : Option ℕ) (times : List Int64)
    (hname : ∀ i ∈ name, i < 2 ^ 31) {line : List UInt8}
    (hscan : sscanfStat vars line = some ⟨cpuWord name, times⟩) (lines : List (List UInt8)) :
    refreshLoop info vars (line :: lines) =
      if Names info.id name then
        some { info with
          totalTime := StatVars.total ⟨cpuWord name, times⟩
          idleTime := StatVars.idle ⟨cpuWord name, times⟩ }
      else refreshLoop info ⟨cpuWord name, times⟩ lines := by
  rw [refreshLoop, hscan]
  dsimp only
  cases name with
  | none =>
    rw [if_neg (by decide), if_pos (by decide)]
    by_cases hid : info.id = -1
    · rw [if_neg (not_not.mpr hid), if_pos (show Names info.id none from hid)]
    · rw [if_pos hid, if_neg (show ¬ Names info.id none from hid)]
  | some i =>
    have hinfix : ascii "cpu" <:+: cpuWord (some i) := (List.prefix_append _ _).isInfix
    have hthird : (cpuWord (some i)).getD 3 0 ≠ 0 := by
      obtain ⟨b, bs, hi, hb⟩ := exists_natText_cons i
      rw [cpuWord, hi]
      rintro rfl
      exact absurd hb (by decide)
    have hatoi : atoi ((cpuWord (some i)).drop 3) = Int32.ofInt i := by
      have hread : scanInt ([] ++ (intText i ++ [])) = some ((i : ℤ), []) :=
        scanInt_intText i (fun b hb => absurd hb (by simp)) (fun b hb => absurd hb (by simp))
      rw [List.nil_append, List.append_nil] at hread
      have hdrop : (cpuWord (some i)).drop 3 = intText i :=
        List.drop_left' (show (ascii "cpu").length = 3 from rfl)
      rw [hdrop, atoi, hread]
      dsimp only
      have hi := hname i rfl
      rw [clampLong, Int64.toInt32_ofInt]
      congr 1
      omega
    have hid : Int32.ofInt i = info.id ↔ Names info.id (some i) := by
      have hi := hname i rfl
      have hround : (Int32.ofInt i).toInt = i := Int32.toInt_ofInt_of_le (by omega) (by omega)
      constructor
      · intro h
        change info.id.toInt = i
        rw [← h, hround]
      · intro h
        apply Int32.toInt_inj.mp
        rw [hround]
        exact Eq.symm h
    rw [if_neg (not_not.mpr hinfix), if_neg hthird, hatoi]
    by_cases hnames : Names info.id (some i)
    · rw [if_pos hnames, if_pos (hid.mpr hnames)]
    · rw [if_neg hnames, if_neg (fun h => hnames (hid.mp h))]

variable {info : CpusInfo} {vars : StatVars} {e : Option ℕ × CpuRow}

lemma notMem_cpuLine (hname : ∀ i ∈ e.1, i < 2 ^ 31) {b : UInt8} (hblank : b ≠ 32)
    (hdigit : isDigit b = false) (hword : isSpace b = true ∨ b = 0) : b ∉ cpuLine e := by
  intro hb
  rcases List.mem_append.mp hb with h | h
  · obtain ⟨hspace, hzero⟩ := (cpuWord_spec e.1 hname).2.1 b h
    rcases hword with h' | h'
    · rw [hspace] at h'
      cases h'
    · exact hzero h'
  · rcases List.mem_append.mp h with h | h
    · cases hgap : e.1 with
      | none =>
        rw [hgap] at h
        exact hblank (List.mem_singleton.mp h)
      | some i =>
        rw [hgap] at h
        cases h
    · rcases mem_timesText h with h | h
      · exact hblank h
      · rw [h] at hdigit
        cases hdigit

lemma exists_blank (e : Option ℕ × CpuRow) :
    ∃ tail, cpuGap e.1 ++ timesText (e.2.first ++ e.2.rest) = 32 :: tail := by
  cases e.1 with
  | none => exact ⟨_, rfl⟩
  | some i => exact ⟨_, rfl⟩

lemma sscanfStat_named (vars : StatVars) (name : Option ℕ) (hname : ∀ i ∈ name, i < 2 ^ 31)
    (tail : List UInt8) :
    ∃ times, times.length = vars.times.length ∧
      sscanfStat vars (cpuWord name ++ 32 :: tail) = some ⟨cpuWord name, times⟩ := by
  obtain ⟨hne, hword, hshort⟩ := cpuWord_spec name hname
  refine ⟨scanTimes vars.times (text (32 :: tail)), length_scanTimes _ _, ?_⟩
  refine sscanfStat_word vars hne hword hshort ?_
  intro b hb
  rw [← Option.some.inj hb]
  decide

lemma sscanfStat_cpuLine (vars : StatVars) (hname : ∀ i ∈ e.1, i < 2 ^ 31) (suffix : List UInt8) :
    ∃ times, times.length = vars.times.length ∧
      sscanfStat vars (cpuLine e ++ suffix) = some ⟨cpuWord e.1, times⟩ := by
  obtain ⟨tail, htail⟩ := exists_blank e
  rw [cpuLine, htail, List.append_assoc, List.cons_append]
  exact sscanfStat_named vars e.1 hname (tail ++ suffix)

lemma refreshLoop_skip (vars : StatVars) (hname : ∀ i ∈ e.1, i < 2 ^ 31)
    (hid : ¬ Names info.id e.1) (hlen : (cpuLine e).length ≤ 127) (rest : List UInt8) :
    ∃ times, times.length = vars.times.length ∧
      refreshLoop info vars (chunks 10 126 (cpuLine e ++ 10 :: rest)) =
        refreshLoop info ⟨cpuWord e.1, times⟩ (chunks 10 126 rest) := by
  have hend : (10 : UInt8) ∉ cpuLine e := notMem_cpuLine hname (by decide) (by decide) (by decide)
  rcases Nat.lt_or_ge (cpuLine e).length 127 with hlt | hge
  · obtain ⟨times, hcount, hscan⟩ := sscanfStat_cpuLine vars hname [10]
    refine ⟨times, hcount, ?_⟩
    rw [chunks_line hend (by omega), refreshLoop_step info vars e.1 times hname hscan, if_neg hid]
  · -- the line end is a piece of its own, and `sscanf` finds nothing in it
    obtain ⟨times, hcount, hscan⟩ := sscanfStat_cpuLine vars hname []
    have hcut := chunks_cut hend (show 126 < (cpuLine e).length by omega) (10 :: rest)
    have hblank : chunks (10 : UInt8) 126 ([] ++ 10 :: rest) = ([] ++ [10]) :: chunks 10 126 rest :=
      chunks_line (by simp) (by simp) rest
    rw [List.take_of_length_le (by omega), List.drop_of_length_le (by omega), hblank] at hcut
    rw [List.append_nil] at hscan
    refine ⟨times, hcount, ?_⟩
    rw [hcut, refreshLoop_step info vars e.1 times hname hscan, if_neg hid,
      refreshLoop_step info _ e.1 times hname rfl, if_neg hid]

/-- The line for the id is read if its seven times stand in the first 126 bytes. -/
lemma refreshLoop_found (vars : StatVars) (hcount : vars.times.length = 7)
    (hname : ∀ i ∈ e.1, i < 2 ^ 31) (hid : Names info.id e.1)
    (hlen : (cpuWord e.1 ++ (cpuGap e.1 ++ timesText e.2.first)).length ≤ 126)
    (rest : List UInt8) :
    refreshLoop info vars (chunks 10 126 (cpuLine e ++ 10 :: rest)) =
      some { info with
        totalTime := (e.2.first.map fun (n : ℕ) => clampLong n).sum
        idleTime := clampLong e.2.idle } := by
  obtain ⟨hne, hword, hshort⟩ := cpuWord_spec e.1 hname
  have hend : (10 : UInt8) ∉ cpuLine e := notMem_cpuLine hname (by decide) (by decide) (by decide)
  have hsplit : cpuLine e =
      cpuWord e.1 ++ (cpuGap e.1 ++ timesText e.2.first) ++ timesText e.2.rest := by
    simp [cpuLine, timesText]
  obtain ⟨b, hb, more, hmore⟩ : ∃ b, isDigit b = false ∧
      ∃ more, timesText e.2.rest ++ 10 :: rest = b :: more := by
    cases e.2.rest with
    | nil => exact ⟨10, by decide, rest, rfl⟩
    | cons n ns => exact ⟨32, by decide, _, rfl⟩
  have hfront : (10 : UInt8) ∉ cpuWord e.1 ++ (cpuGap e.1 ++ timesText e.2.first) := by
    intro h
    apply hend
    rw [hsplit]
    exact List.mem_append.mpr (.inl h)
  obtain ⟨tail, lines, hchunks⟩ := exists_chunks_front hfront hlen b more
  have hzero : (0 : UInt8) ∉ cpuGap e.1 ++ timesText e.2.first := by
    have hline : (0 : UInt8) ∉ cpuLine e := notMem_cpuLine hname (by decide) (by decide) (by decide)
    intro h
    apply hline
    rw [hsplit]
    exact List.mem_append.mpr (.inl (List.mem_append.mpr (.inr h)))
  have hstop : ∀ c ∈ (text (b :: tail)).head?, isDigit c = false := by
    intro c hc
    rw [text, List.takeWhile_cons] at hc
    split at hc
    · rw [← Option.some.inj hc]
      exact hb
    · cases hc
  have hgap : ∀ s, scanTimes vars.times (cpuGap e.1 ++ s) = scanTimes vars.times s := by
    intro s
    cases e.1 with
    | none => exact scanTimes_blank vars.times s
    | some i => rfl
  have hscan : sscanfStat vars
      (cpuWord e.1 ++ (cpuGap e.1 ++ timesText e.2.first) ++ b :: tail) =
        some ⟨cpuWord e.1, e.2.first.map fun (n : ℕ) => clampLong n⟩ := by
    rw [List.append_assoc, sscanfStat_word vars hne hword hshort, text_append_of_zero_notMem hzero,
      List.append_assoc, hgap, scanTimes_timesText vars.times e.2.first hcount hstop]
    intro c hc
    cases hname' : e.1 with
    | none =>
      rw [hname'] at hc
      rw [← Option.some.inj hc]
      decide
    | some i =>
      rw [hname'] at hc
      rw [← Option.some.inj hc]
      decide
  rw [hsplit, List.append_assoc, hmore, hchunks, refreshLoop_step info vars e.1 _ hname hscan,
    if_pos hid]
  rfl

lemma exists_word (times : List ℕ) (htimes : ∀ n ∈ times, n < 2 ^ 64) (k : ℕ)
    (hk : k < (timesText times).length) (rest : List UInt8) :
    ∃ blank word b more,
      (timesText times).drop k ++ 10 :: rest = blank ++ (word ++ b :: more) ∧
        (blank = [] ∨ blank = [32]) ∧ word ≠ [] ∧ (∀ c ∈ word, isDigit c = true) ∧
        word.length ≤ 20 ∧ isSpace b = true := by
  induction times generalizing k with
  | nil => exact absurd hk (by simp [timesText])
  | cons n times ih =>
    have hn : n < 10 ^ 20 := Nat.lt_trans (htimes n List.mem_cons_self) (by decide)
    have hlen : (natText n).length ≤ 20 := by
      rw [natText, List.length_map]
      exact (Nat.length_toDigits_le_iff (by decide) (by decide)).mpr hn
    have htext : timesText (n :: times) = 32 :: (natText n ++ timesText times) := by
      simp [timesText]
    obtain ⟨b, more, hnext, hb⟩ : ∃ b more, timesText times ++ 10 :: rest = b :: more ∧
        isSpace b = true := by
      cases times with
      | nil => exact ⟨10, rest, rfl, by decide⟩
      | cons m ms => exact ⟨32, _, rfl, by decide⟩
    cases k with
    | zero =>
      refine ⟨[32], natText n, b, more, ?_, .inr rfl, natText_ne_nil n,
        fun c hc => isDigit_of_mem_natText hc, hlen, hb⟩
      rw [htext, ← hnext]
      simp
    | succ j =>
      rw [htext, List.drop_succ_cons]
      rcases Nat.lt_or_ge j (natText n).length with hj | hj
      · refine ⟨[], (natText n).drop j, b, more, ?_, .inl rfl, ?_, ?_, ?_, hb⟩
        · rw [List.drop_append_of_le_length (Nat.le_of_lt hj), List.append_assoc, hnext,
            List.nil_append]
        · intro hnil
          rw [List.drop_eq_nil_iff] at hnil
          omega
        · intro c hc
          exact isDigit_of_mem_natText (List.mem_of_mem_drop hc)
        · rw [List.length_drop]
          omega
      · rw [List.drop_append, List.drop_of_length_le hj, List.nil_append]
        apply ih (fun m hm => htimes m (List.mem_cons_of_mem n hm))
        rw [htext, List.length_cons, List.length_append] at hk
        omega

lemma sscanfStat_blank (vars : StatVars) (s : List UInt8) :
    sscanfStat vars (32 :: s) = sscanfStat vars s := by
  have htext : text (32 :: s) = 32 :: text s := by
    rw [text, List.takeWhile_cons_of_pos (by decide)]
    rfl
  have hskip : skipSpace (32 :: text s) = skipSpace (text s) := by
    rw [skipSpace, List.dropWhile_cons_of_pos (by decide)]
    rfl
  rw [sscanfStat, sscanfStat, htext, hskip]

lemma refreshLoop_number (vars : StatVars) {blank word : List UInt8}
    (hblank : blank = [] ∨ blank = [32]) (hne : word ≠ []) (hdigits : ∀ c ∈ word, isDigit c = true)
    (hlen : word.length ≤ 20) {b : UInt8} (hb : isSpace b = true) (tail : List UInt8)
    (lines : List (List UInt8)) :
    refreshLoop info vars ((blank ++ word ++ b :: tail) :: lines) = some info := by
  have hword : ∀ c ∈ word, isSpace c = false ∧ c ≠ 0 := by
    intro c hc
    refine ⟨not_isSpace_of_isDigit (hdigits c hc), ?_⟩
    rintro rfl
    exact absurd (hdigits 0 hc) (by decide)
  have hscan : sscanfStat vars (word ++ b :: tail) =
      some ⟨word, scanTimes vars.times (text (b :: tail))⟩ := by
    refine sscanfStat_word vars hne hword (by omega) ?_
    intro c hc
    rw [← Option.some.inj hc]
    exact hb
  have hpiece : sscanfStat vars (blank ++ word ++ b :: tail) =
      some ⟨word, scanTimes vars.times (text (b :: tail))⟩ := by
    rw [List.append_assoc]
    rcases hblank with rfl | rfl
    · exact hscan
    · exact (sscanfStat_blank vars _).trans hscan
  have hcpu : ¬ ascii "cpu" <:+: word := by
    intro h
    have hmem : (99 : UInt8) ∈ word := h.subset (by decide)
    exact absurd (hdigits 99 hmem) (by decide)
  rw [refreshLoop, hpiece]
  exact if_pos hcpu

lemma cpuLine_cut (hname : ∀ i ∈ e.1, i < 2 ^ 31) (hlen : 127 < (cpuLine e).length) :
    (∃ tail, (cpuLine e).take (126 + 1) = cpuWord e.1 ++ 32 :: tail) ∧
      ∃ k, k < (timesText (e.2.first ++ e.2.rest)).length ∧
        (cpuLine e).drop (126 + 1) = (timesText (e.2.first ++ e.2.rest)).drop k := by
  obtain ⟨-, -, hshort⟩ := cpuWord_spec e.1 hname
  obtain ⟨tail, htail⟩ := exists_blank e
  obtain ⟨j, hj⟩ : ∃ j, 126 + 1 = (cpuWord e.1).length + (j + 1) :=
    ⟨126 - (cpuWord e.1).length, by omega⟩
  have hgap : (cpuGap e.1).length ≤ 1 := by
    cases e.1 with
    | none => exact Nat.le_refl 1
    | some i => exact Nat.zero_le 1
  have hhead : (cpuWord e.1 ++ cpuGap e.1).length ≤ 127 := by
    rw [List.length_append]
    omega
  have htotal : (cpuLine e).length = (cpuWord e.1 ++ cpuGap e.1).length +
      (timesText (e.2.first ++ e.2.rest)).length := by
    rw [cpuLine, ← List.append_assoc, List.length_append]
  refine ⟨⟨tail.take j, ?_⟩, 127 - (cpuWord e.1 ++ cpuGap e.1).length, by omega, ?_⟩
  · rw [hj, cpuLine, htail, List.take_length_add_append, List.take_succ_cons]
  · rw [cpuLine, ← List.append_assoc, List.drop_append, List.drop_of_length_le hhead,
      List.nil_append]

/-- A line that is not for the id ends the search if it has more than 127 bytes. -/
lemma refreshLoop_long (vars : StatVars) (hname : ∀ i ∈ e.1, i < 2 ^ 31)
    (hid : ¬ Names info.id e.1) (hlen : 127 < (cpuLine e).length)
    (htimes : ∀ n ∈ e.2.first ++ e.2.rest, n < 2 ^ 64) (rest : List UInt8) :
    refreshLoop info vars (chunks 10 126 (cpuLine e ++ 10 :: rest)) = some info := by
  have hend : (10 : UInt8) ∉ cpuLine e := notMem_cpuLine hname (by decide) (by decide) (by decide)
  obtain ⟨⟨tail, hfirst⟩, k, hk, hrest⟩ := cpuLine_cut hname hlen
  obtain ⟨times, -, hscan⟩ := sscanfStat_named vars e.1 hname tail
  obtain ⟨blank, word, b, more, hpiece, hblank, hne, hdigits, hwordLen, hb⟩ :=
    exists_word _ htimes k hk rest
  have hblankLen : blank.length ≤ 1 := by
    rcases hblank with rfl | rfl
    · exact Nat.zero_le 1
    · exact Nat.le_refl 1
  have hnoEnd : (10 : UInt8) ∉ blank ++ word := by
    intro h
    rcases List.mem_append.mp h with h | h
    · rcases hblank with rfl | rfl
      · cases h
      · exact absurd h (by decide)
    · exact absurd (hdigits 10 h) (by decide)
  have hfits : (blank ++ word).length ≤ 126 := by
    rw [List.length_append]
    omega
  obtain ⟨tail', lines, hchunks⟩ := exists_chunks_front hnoEnd hfits b more
  rw [chunks_cut hend (by omega), hfirst, hrest, hpiece, ← List.append_assoc, hchunks,
    refreshLoop_step info vars e.1 times hname hscan, if_neg hid]
  exact refreshLoop_number _ hblank hne hdigits hwordLen hb tail' lines

end Lines

section Times

lemma clampLong_natCast {n : ℕ} (hn : n < 2 ^ 63) : clampLong n = Int64.ofInt n := by
  rw [clampLong]
  congr 1
  omega

lemma sum_clampLong (times : List ℕ) (hsum : times.sum < 2 ^ 63) :
    (times.map fun (n : ℕ) => clampLong n).sum = Int64.ofInt times.sum := by
  induction times with
  | nil => rfl
  | cons n times ih =>
    rw [List.sum_cons] at hsum
    rw [List.map_cons, List.sum_cons, List.sum_cons, ih (by omega), clampLong_natCast (by omega),
      Int.natCast_add, Int64.ofInt_add]

lemma toInt_ofInt_natCast {n : ℕ} (hn : n < 2 ^ 63) : (Int64.ofInt n).toInt = n :=
  Int64.toInt_ofInt_of_le (by omega) (by omega)

end Times

/-- The times of the first line for the id are stored if its seven times stand in the first 126
bytes and can be added, unless a line of more than 127 bytes stands in front of it: such a line
hides all processors behind it, and nothing is stored. -/
theorem cpusRefresh_reads_visible (entries : List (Option ℕ × CpuRow)) (more : List UInt8)
    (info : CpusInfo) (hnames : ∀ e ∈ entries, ∀ i ∈ e.1, i < 2 ^ 31)
    (htimes : ∀ e ∈ entries, ∀ n ∈ e.2.first ++ e.2.rest, n < 2 ^ 64)
    (htotal : ∀ e ∈ visible info.id entries, e.2.total < 2 ^ 63)
    (hfirst : ∀ e ∈ visible info.id entries,
      (cpuWord e.1 ++ (cpuGap e.1 ++ timesText e.2.first)).length ≤ 126) :
    ∃ info', cpusRefresh info (statText more entries) = some info' ∧ info'.id = info.id ∧
      match visible info.id entries with
      | some e => info'.totalTime.toInt = e.2.total ∧ info'.idleTime.toInt = e.2.idle
      | none => info' = info := by
  suffices h : ∀ vars : StatVars, vars.times.length = 7 →
      ∃ info', refreshLoop info vars (chunks 10 126 (statText more entries)) = some info' ∧
        info'.id = info.id ∧
        match visible info.id entries with
        | some e => info'.totalTime.toInt = e.2.total ∧ info'.idleTime.toInt = e.2.idle
        | none => info' = info by
    exact h ⟨[], List.replicate 7 0⟩ rfl
  induction entries with
  | nil =>
    intro vars _
    refine ⟨info, ?_, rfl, rfl⟩
    have hend : (10 : UInt8) ∉ ascii "intr" := by decide
    obtain ⟨tail, lines, hchunks⟩ := exists_chunks_front hend (show _ ≤ 126 by decide) 32 more
    have hscan : sscanfStat vars (ascii "intr" ++ 32 :: tail) =
        some ⟨ascii "intr", scanTimes vars.times (text (32 :: tail))⟩ := by
      refine sscanfStat_word vars (by decide) (word_of_all (by decide)) (by decide) ?_
      intro b hb
      rw [← Option.some.inj hb]
      decide
    change refreshLoop info vars (chunks 10 126 (ascii "intr" ++ 32 :: more)) = some info
    rw [hchunks, refreshLoop, hscan]
    exact if_pos (show ¬ ascii "cpu" <:+: ascii "intr" by decide)
  | cons e entries ih =>
    intro vars hcount
    have hname := hnames e List.mem_cons_self
    rw [visible] at htotal hfirst ⊢
    rw [statText]
    by_cases hid : Names info.id e.1
    · rw [if_pos hid] at htotal hfirst ⊢
      refine ⟨_, refreshLoop_found vars hcount hname hid (hfirst e rfl) _, rfl, ?_⟩
      have htotal := htotal e rfl
      have hidle : e.2.idle < 2 ^ 63 := by
        have hsum : e.2.total = e.2.first.sum := rfl
        simp only [CpuRow.first, List.sum_cons, List.sum_nil] at hsum
        omega
      constructor
      · rw [sum_clampLong e.2.first htotal]
        exact toInt_ofInt_natCast htotal
      · rw [clampLong_natCast hidle]
        exact toInt_ofInt_natCast hidle
    · rw [if_neg hid] at htotal hfirst ⊢
      by_cases hlen : (cpuLine e).length ≤ 127
      · rw [if_pos hlen] at htotal hfirst ⊢
        obtain ⟨times, hcount', hskip⟩ :=
          refreshLoop_skip vars hname hid hlen (statText more entries)
        rw [hskip]
        exact ih (fun e' he' => hnames e' (List.mem_cons_of_mem e he'))
          (fun e' he' => htimes e' (List.mem_cons_of_mem e he')) htotal hfirst _
          (hcount'.trans hcount)
      · rw [if_neg hlen]
        exact ⟨info, refreshLoop_long vars hname hid (by omega) (htimes e List.mem_cons_self) _,
          rfl, rfl⟩

def quietRow : CpuRow := ⟨5, 0, 2, 90, 1, 0, 0, [0, 0, 0]⟩

/-- A processor that has been busy for long: its line has 150 bytes. -/
def busyRow : CpuRow :=
  ⟨40000000000, 10000000000, 30000000000, 20000000000, 10000000000, 10000000000, 10000000000,
    [10000000000000000000, 10000000000000000000, 10000000000]⟩

/-- Behind a quiet processor 0 the times of processor 1 are read, behind a busy one not. -/
theorem cpusRefresh_reads_second :
    (∃ info', cpusRefresh ⟨1, 0, 0⟩ (statText [] [(none, quietRow), (some 0, quietRow),
        (some 1, quietRow)]) = some info' ∧ info'.totalTime.toInt = 98 ∧
        info'.idleTime.toInt = 90) ∧
      cpusRefresh ⟨1, 0, 0⟩ (statText [] [(none, quietRow), (some 0, busyRow),
        (some 1, quietRow)]) = some ⟨1, 0, 0⟩ := by
  have hseen : visible (CpusInfo.id ⟨1, 0, 0⟩)
      [(none, quietRow), (some 0, quietRow), (some 1, quietRow)] = some (some 1, quietRow) := by
    decide
  have hhidden : visible (CpusInfo.id ⟨1, 0, 0⟩)
      [(none, quietRow), (some 0, busyRow), (some 1, quietRow)] = none := by decide +kernel
  have hquiet := cpusRefresh_reads_visible
    [(none, quietRow), (some 0, quietRow), (some 1, quietRow)] [] ⟨1, 0, 0⟩ (by decide)
    (by decide)
  rw [hseen] at hquiet
  have hbusy := cpusRefresh_reads_visible
    [(none, quietRow), (some 0, busyRow), (some 1, quietRow)] [] ⟨1, 0, 0⟩ (by decide)
    (by decide)
  rw [hhidden] at hbusy
  obtain ⟨info₁, hread₁, -, htotal, hidle⟩ := hquiet (by decide) (by decide)
  obtain ⟨info₂, hread₂, -, hsame⟩ := hbusy (by simp) (by simp)
  refine ⟨⟨info₁, hread₁, htotal, hidle⟩, ?_⟩
  rw [hread₂, hsame]

end GeneralPurposeLibrary.Proofs
