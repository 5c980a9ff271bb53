import GeneralPurposeLibrary.FileSystemCmd
import Mathlib.Algebra.Group.Nat.Defs
import Mathlib.Order.Bounds.Basic

/-!
# What is kept of the output of a command

`file_system_cmd` appends the chunks that `fgets` delivers as long as they fit, and ends the
string in front of the first that does not. Nothing is stored when the command prints nothing,
and the test wraps around when the sum of the lengths reaches 2^31.
-/

namespace GeneralPurposeLibrary.Proofs
open CString LineChunks FuelLoop

/-- What the successive calls of `fgets` deliver: the lines of the output, cut at 255 bytes. -/
def cmdChunks (output : List UInt8) : List (List UInt8) := chunks 10 254 output

/-- The first `k` chunks put together. -/
def leading (output : List UInt8) (k : ℕ) : List UInt8 := ((cmdChunks output).take k).flatten

/-- The call ends with the buffer holding the longest run of leading chunks that fits. -/
def ReturnsLongestRun (popen : String → Option (List UInt8)) (cmd : String)
    (output buf : List UInt8) : Prop :=
  ∃ buf' k,
    IsGreatest {k | k ≤ (cmdChunks output).length ∧ (leading output k).length < buf.length} k ∧
    Holds buf' (leading output k) ∧ buf'.length = buf.length ∧
    ∃ n, ∀ fuel, n ≤ fuel →
      fileSystemCmd popen fuel cmd buf (Int32.ofNat buf.length) = some (.ok (.buf, buf'))

section Chunks

variable {output : List UInt8} {k : ℕ}

lemma leading_succ {c : List UInt8} (h : (cmdChunks output)[k]? = some c) :
    leading output (k + 1) = leading output k ++ c := by
  obtain ⟨hk, hget⟩ := List.getElem?_eq_some_iff.mp h
  rw [leading, List.take_succ_eq_append_getElem hk, hget, List.flatten_append]
  simp [leading]

lemma length_leading_le {k' : ℕ} (h : k ≤ k') :
    (leading output k).length ≤ (leading output k').length := by
  have hsplit : leading output k' =
      leading output k ++ (((cmdChunks output).take k').drop k).flatten := by
    have htake : (cmdChunks output).take k = ((cmdChunks output).take k').take k := by
      rw [List.take_take, Nat.min_eq_left h]
    rw [leading, leading, htake, ← List.flatten_append, List.take_append_drop]
  rw [hsplit, List.length_append]
  exact Nat.le_add_right _ _

lemma leading_nil : leading [] k = [] := by
  rw [leading, cmdChunks, chunks_nil, List.take_nil]
  rfl

lemma leading_succ_of_le (h : (cmdChunks output).length ≤ k) :
    leading output (k + 1) = leading output k := by
  rw [leading, leading, List.take_of_length_le (by omega), List.take_of_length_le h]

lemma length_leading_le_length : (leading output k).length ≤ output.length := by
  have hall : leading output (max k (cmdChunks output).length) = output := by
    rw [leading, List.take_of_length_le (Nat.le_max_right _ _), cmdChunks, flatten_chunks]
  calc
    (leading output k).length ≤ (leading output (max k (cmdChunks output).length)).length :=
      length_leading_le (Nat.le_max_left _ _)
    _ = output.length := by rw [hall]

lemma zero_notMem_leading (h : 0 ∉ output) : 0 ∉ leading output k := by
  intro hmem
  apply h
  rw [← flatten_chunks 10 254 output]
  obtain ⟨c, hc, hzero⟩ := List.mem_flatten.mp hmem
  exact List.mem_flatten.mpr ⟨c, List.mem_of_mem_take hc, hzero⟩

lemma isGreatest_leading {size : ℕ} (hk : k ≤ (cmdChunks output).length)
    (hfits : (leading output k).length < size)
    (hnext : k < (cmdChunks output).length → size ≤ (leading output (k + 1)).length) :
    IsGreatest {k | k ≤ (cmdChunks output).length ∧ (leading output k).length < size} k := by
  refine ⟨⟨hk, hfits⟩, ?_⟩
  rintro k' ⟨hk', hfits'⟩
  by_contra hlt
  have hle : k + 1 ≤ k' := by omega
  have hmono : (leading output (k + 1)).length ≤ (leading output k').length :=
    length_leading_le hle
  have hbeyond := hnext (by omega)
  omega

end Chunks

/-! ### A round of the loop -/

/-- The first `k` chunks are in the buffer, ended by a zero if there are any. -/
structure Appended (output buf : List UInt8) (k : ℕ) (s : CmdState) : Prop where
  rest : cmdChunks s.output = (cmdChunks output).drop k
  chunk_le : k ≤ (cmdChunks output).length
  offset : s.offset = Int32.ofNat (leading output k).length
  fits : (leading output k).length < buf.length
  length : s.buf.length = buf.length
  front : ∃ rest, s.buf = leading output k ++ rest
  holds : 0 < k → Holds s.buf (leading output k)
  untouched : k = 0 → s.buf = buf

lemma fgets_nil : fgets 254 [] = none := rfl

lemma fgets_of_ne_nil {output : List UInt8} (h : output ≠ []) :
    ∃ c rest, fgets 254 output = some (c ++ [0], rest) ∧ cmdChunks output = c :: cmdChunks rest ∧
      c.length ≤ 255 ∧ rest.length < output.length := by
  refine ⟨_, _, ?_, chunks_of_ne_nil 10 254 h, ?_, ?_⟩
  · cases output with
    | nil => exact absurd rfl h
    | cons a as => rfl
  · have hle := chunkLength_le 10 (254 + 1) output
    rw [List.length_take]
    omega
  · cases output with
    | nil => exact absurd rfl h
    | cons a as =>
      have hpos := chunkLength_pos 10 254 a as
      rw [List.length_drop, List.length_cons]
      omega

lemma storeOffset_eq {buf bytes : List UInt8} {n : ℕ} (h : n < 2 ^ 31) :
    storeOffset buf (Int32.ofNat n) bytes =
      (storeAt buf n bytes).elim (.error .bufBounds) Except.ok := by
  have hvalue := Int32.toInt_ofNat_of_lt h
  have hnonneg : ¬Int32.ofNat n < 0 := by
    rw [Int32.lt_iff_toInt_lt, hvalue]
    exact Int.not_lt.mpr (Int.natCast_nonneg n)
  rw [storeOffset, if_neg hnonneg, hvalue, Int.toNat_natCast]
  cases storeAt buf n bytes <;> rfl

lemma ofNat_ge_iff {m n : ℕ} (hm : m < 2 ^ 31) (hn : n < 2 ^ 31) :
    Int32.ofNat m ≥ Int32.ofNat n ↔ n ≤ m := by
  rw [ge_iff_le, Int32.le_iff_toInt_le, Int32.toInt_ofNat_of_lt hm, Int32.toInt_ofNat_of_lt hn]
  exact Int.ofNat_le

lemma not_ofNat_ge {m n : ℕ} (hm : 2 ^ 31 ≤ m) (hlt : m < 2 ^ 32) (hn : n < 2 ^ 31) :
    ¬Int32.ofNat m ≥ Int32.ofNat n := by
  have hneg : (Int32.ofNat m).toInt = (m : ℤ) - 2 ^ 32 := by
    rw [Int32.toInt_ofNat', Int.bmod_def, Int32.size]
    omega
  rw [ge_iff_le, Int32.le_iff_toInt_le, Int32.toInt_ofNat_of_lt hn, hneg]
  omega

section Round

variable {output buf : List UInt8} {k : ℕ} {s : CmdState}

lemma Appended.last (h : Appended output buf k s) (hs : s.output = []) :
    k = (cmdChunks output).length := by
  have hdrop : (cmdChunks output).drop k = [] := by
    rw [← h.rest, hs]
    exact chunks_nil 10 254
  have hle := List.drop_eq_nil_iff.mp hdrop
  have hk := h.chunk_le
  omega

/-- The next chunk, and what is left behind it. -/
structure NextChunk (output : List UInt8) (k : ℕ) (s : CmdState) (c rest : List UInt8) :
    Prop where
  fgets_eq : fgets 254 s.output = some (c ++ [0], rest)
  lt : k < (cmdChunks output).length
  leading_succ : leading output (k + 1) = leading output k ++ c
  length_le : c.length ≤ 255
  shorter : rest.length < s.output.length
  rest_eq : cmdChunks rest = (cmdChunks output).drop (k + 1)

lemma Appended.exists_nextChunk (h : Appended output buf k s) (hs : s.output ≠ []) :
    ∃ c rest, NextChunk output k s c rest := by
  obtain ⟨c, rest, hfgets, hchunks, hc, hrest⟩ := fgets_of_ne_nil hs
  have hdrop : (cmdChunks output).drop k = c :: cmdChunks rest := by
    rw [← h.rest, hchunks]
  have hget : (cmdChunks output)[k]? = some c := by
    have hhead := congrArg List.head? hdrop
    rwa [List.head?_drop, List.head?_cons] at hhead
  have htail : cmdChunks rest = (cmdChunks output).drop (k + 1) := by
    rw [← List.drop_drop, hdrop]
    rfl
  exact ⟨c, rest, hfgets, (List.getElem?_eq_some_iff.mp hget).1, leading_succ hget, hc, hrest,
    htail⟩

variable {c rest : List UInt8}

lemma NextChunk.length_succ (hnext : NextChunk output k s c rest) :
    (leading output (k + 1)).length = (leading output k).length + c.length := by
  rw [hnext.leading_succ, List.length_append]

lemma NextChunk.holds (hnext : NextChunk output k s c rest) (hzero : 0 ∉ output) :
    Holds (c ++ [0]) c := by
  refine ⟨?_, [], rfl⟩
  intro hmem
  have hnotMem : 0 ∉ leading output (k + 1) := zero_notMem_leading hzero
  rw [hnext.leading_succ] at hnotMem
  exact hnotMem (List.mem_append_right _ hmem)

lemma NextChunk.sum (hnext : NextChunk output k s c rest) (h : Appended output buf k s)
    (hzero : 0 ∉ output) :
    s.offset + Int32.ofNat (strlen (c ++ [0])) = Int32.ofNat (leading output (k + 1)).length := by
  rw [h.offset, (hnext.holds hzero).strlen_eq, hnext.length_succ, Int32.ofNat_add]

lemma Appended.exists_tail (h : Appended output buf k s) :
    ∃ tail, s.buf = leading output k ++ tail ∧
      (leading output k).length + tail.length = buf.length := by
  obtain ⟨tail, htail⟩ := h.front
  refine ⟨tail, htail, ?_⟩
  rw [← h.length, htail, List.length_append]

lemma cmdRound_fits (h : Appended output buf k s) (hnext : NextChunk output k s c rest)
    (hzero : 0 ∉ output) (hsize : buf.length < 2 ^ 31)
    (hlt : (leading output (k + 1)).length < buf.length) :
    ∃ s', cmdRound (Int32.ofNat buf.length) s = .inl s' ∧ Appended output buf (k + 1) s' ∧
      s'.output.length < s.output.length := by
  obtain ⟨tail, htail, hlength⟩ := h.exists_tail
  have hsucc := hnext.length_succ
  have htest : ¬Int32.ofNat (leading output (k + 1)).length ≥ Int32.ofNat buf.length := by
    rw [ofNat_ge_iff (by omega) hsize]
    omega
  have hstore : storeOffset s.buf s.offset (c ++ [0]) =
      .ok (leading output k ++ c ++ 0 :: tail.drop (c.length + 1)) := by
    rw [h.offset, storeOffset_eq (by omega), htail, storeAt_append (by omega)]
    rfl
  have hround : cmdRound (Int32.ofNat buf.length) s =
      .inl ⟨rest, Int32.ofNat (leading output (k + 1)).length,
        leading output (k + 1) ++ 0 :: tail.drop (c.length + 1)⟩ := by
    unfold cmdRound
    rw [hnext.fgets_eq]
    simp only [hnext.sum h hzero, (hnext.holds hzero).text_eq]
    rw [if_neg htest, hstore, hnext.leading_succ]
  refine ⟨_, hround, ?_, hnext.shorter⟩
  exact
    { rest := hnext.rest_eq
      chunk_le := hnext.lt
      offset := rfl
      fits := hlt
      length := by
        simp only [List.length_append, List.length_cons, List.length_drop]
        omega
      front := ⟨0 :: tail.drop (c.length + 1), rfl⟩
      holds := fun _ => ⟨zero_notMem_leading hzero, tail.drop (c.length + 1), rfl⟩
      untouched := fun hk => absurd hk (Nat.succ_ne_zero k) }

lemma cmdRound_full (h : Appended output buf k s) (hnext : NextChunk output k s c rest)
    (hzero : 0 ∉ output) (hsize : buf.length < 2 ^ 31)
    (hge : buf.length ≤ (leading output (k + 1)).length)
    (hlt : (leading output (k + 1)).length < 2 ^ 31) :
    ∃ buf', cmdRound (Int32.ofNat buf.length) s = .inr (.ok buf') ∧
      Holds buf' (leading output k) ∧ buf'.length = buf.length := by
  obtain ⟨tail, htail, hlength⟩ := h.exists_tail
  have hfits := h.fits
  have htest : Int32.ofNat (leading output (k + 1)).length ≥ Int32.ofNat buf.length :=
    (ofNat_ge_iff hlt hsize).mpr hge
  have hstore : storeOffset s.buf s.offset ([] ++ [0]) =
      .ok (leading output k ++ [] ++ 0 :: tail.drop 1) := by
    rw [h.offset, storeOffset_eq (by omega), htail,
      storeAt_append (by rw [List.length_nil]; omega)]
    rfl
  rw [List.nil_append, List.append_nil] at hstore
  refine ⟨leading output k ++ 0 :: tail.drop 1, ?_, ?_, ?_⟩
  · unfold cmdRound
    rw [hnext.fgets_eq]
    simp only [hnext.sum h hzero]
    rw [if_pos htest, hstore]
  · exact ⟨zero_notMem_leading hzero, tail.drop 1, rfl⟩
  · simp only [List.length_append, List.length_cons, List.length_drop]
    omega

/-- A sum that wraps around passes the test, and the chunk is stored beyond the buffer. -/
lemma cmdRound_overflow (h : Appended output buf k s) (hnext : NextChunk output k s c rest)
    (hzero : 0 ∉ output) (hsize : buf.length < 2 ^ 31)
    (hge : 2 ^ 31 ≤ (leading output (k + 1)).length) :
    cmdRound (Int32.ofNat buf.length) s = .inr (.error .bufBounds) := by
  obtain ⟨tail, htail, hlength⟩ := h.exists_tail
  have hfits := h.fits
  have hsucc := hnext.length_succ
  have hc := hnext.length_le
  have htest : ¬Int32.ofNat (leading output (k + 1)).length ≥ Int32.ofNat buf.length :=
    not_ofNat_ge hge (by omega) hsize
  have hstore : storeOffset s.buf s.offset (c ++ [0]) = .error .bufBounds := by
    rw [h.offset, storeOffset_eq (by omega), htail, storeAt_append_of_le (by omega)]
    rfl
  unfold cmdRound
  rw [hnext.fgets_eq]
  simp only [hnext.sum h hzero, (hnext.holds hzero).text_eq]
  rw [if_neg htest, hstore]

end Round

/-! ### The whole loop -/

section Loop

variable {output buf : List UInt8}

lemma appended_zero (hbuf : buf ≠ []) : Appended output buf 0 ⟨output, 0, buf⟩ where
  rest := rfl
  chunk_le := Nat.zero_le _
  offset := rfl
  fits := List.length_pos_iff.mpr hbuf
  length := rfl
  front := ⟨buf, rfl⟩
  holds := fun h => absurd h (Nat.lt_irrefl 0)
  untouched := fun _ => rfl

lemma cmdChunks_ne_nil (h : output ≠ []) : cmdChunks output ≠ [] := by
  rw [cmdChunks, chunks_of_ne_nil 10 254 h]
  exact List.cons_ne_nil _ _

/-- How the loop ends: with a store outside the buffer if the length of the longest run that
fits and the next chunk reaches 2^31, and otherwise with that run in the buffer, unless there
is no output. -/
def CmdOutcome (output buf : List UInt8) (result : Except CmdFault (List UInt8)) : Prop :=
  ∃ k, IsGreatest
      {k | k ≤ (cmdChunks output).length ∧ (leading output k).length < buf.length} k ∧
    ((2 ^ 31 ≤ (leading output (k + 1)).length ∧ result = .error .bufBounds) ∨
      ((leading output (k + 1)).length < 2 ^ 31 ∧ ∃ buf', result = .ok buf' ∧
        buf'.length = buf.length ∧ (output = [] → buf' = buf) ∧
        (output ≠ [] → Holds buf' (leading output k))))

lemma Appended.outcome_last {k : ℕ} {s : CmdState} (h : Appended output buf k s)
    (hsize : buf.length < 2 ^ 31) (hs : s.output = []) : CmdOutcome output buf (.ok s.buf) := by
  have hlast := h.last hs
  have hfits := h.fits
  refine ⟨k, isGreatest_leading h.chunk_le h.fits (fun hlt => by omega), Or.inr ⟨?_, s.buf, rfl,
    h.length, ?_, ?_⟩⟩
  · rw [leading_succ_of_le (by omega)]
    omega
  · intro hnil
    apply h.untouched
    rw [hlast, hnil, cmdChunks, chunks_nil]
    rfl
  · intro hne
    apply h.holds
    rw [hlast]
    exact List.length_pos_iff.mpr (cmdChunks_ne_nil hne)

lemma Appended.round {k : ℕ} {s : CmdState} (h : Appended output buf k s) (hzero : 0 ∉ output)
    (hsize : buf.length < 2 ^ 31) :
    (∃ s', cmdRound (Int32.ofNat buf.length) s = .inl s' ∧ Appended output buf (k + 1) s' ∧
        s'.output.length < s.output.length) ∨
      ∃ result, cmdRound (Int32.ofNat buf.length) s = .inr result ∧
        CmdOutcome output buf result := by
  by_cases hs : s.output = []
  · right
    refine ⟨.ok s.buf, ?_, h.outcome_last hsize hs⟩
    rw [cmdRound, hs, fgets_nil]
  · obtain ⟨c, rest, hnext⟩ := h.exists_nextChunk hs
    by_cases hlt : (leading output (k + 1)).length < buf.length
    · exact Or.inl (cmdRound_fits h hnext hzero hsize hlt)
    · right
      have hgreatest := isGreatest_leading h.chunk_le h.fits (fun _ => Nat.le_of_not_lt hlt)
      by_cases hwrap : (leading output (k + 1)).length < 2 ^ 31
      · obtain ⟨buf', hround, hholds, hlength⟩ :=
          cmdRound_full h hnext hzero hsize (Nat.le_of_not_lt hlt) hwrap
        refine ⟨.ok buf', hround, k, hgreatest, Or.inr ⟨hwrap, buf', rfl, hlength, ?_,
          fun _ => hholds⟩⟩
        rintro rfl
        have hchunk := hnext.lt
        rw [cmdChunks, chunks_nil] at hchunk
        cases hchunk
      · have hge := Nat.le_of_not_lt hwrap
        exact ⟨.error .bufBounds, cmdRound_overflow h hnext hzero hsize hge, k, hgreatest,
          Or.inl ⟨hge, rfl⟩⟩

lemma exists_run_cmdRound (hzero : 0 ∉ output) (hbuf : buf ≠ []) (hsize : buf.length < 2 ^ 31) :
    ∃ result, CmdOutcome output buf result ∧ ∃ n, ∀ fuel, n ≤ fuel →
      run (cmdRound (Int32.ofNat buf.length)) fuel ⟨output, 0, buf⟩ = some result := by
  let I := fun s => ∃ k, Appended output buf k s
  let variant := fun s : CmdState => s.output.length
  have hround : ∀ s, I s →
      (∃ s', cmdRound (Int32.ofNat buf.length) s = .inl s' ∧ I s' ∧ variant s' < variant s) ∨
        ∃ result, cmdRound (Int32.ofNat buf.length) s = .inr result ∧
          CmdOutcome output buf result := by
    rintro s ⟨k, h⟩
    rcases h.round hzero hsize with ⟨s', hbody, happended, hshorter⟩ | hend
    · exact Or.inl ⟨s', hbody, ⟨k + 1, happended⟩, hshorter⟩
    · exact Or.inr hend
  obtain ⟨result, houtcome, hrun⟩ := exists_run hround ⟨0, appended_zero hbuf⟩
  exact ⟨result, houtcome, output.length + 1, fun fuel hfuel => hrun fuel hfuel⟩

lemma holds_nil_iff {buf : List UInt8} : Holds buf [] ↔ buf.head? = some 0 := by
  cases buf with
  | nil =>
    constructor
    · rintro ⟨-, rest, h⟩
      cases h
    · intro h
      cases h
  | cons b rest =>
    constructor
    · rintro ⟨-, rest', h⟩
      cases h
      rfl
    · intro h
      cases h
      exact ⟨List.not_mem_nil, rest, rfl⟩

end Loop

section Result

variable {popen : String → Option (List UInt8)} {cmd : String} {output buf : List UInt8}

lemma exists_outcome (hcmd : popen cmd = some output) (hzero : 0 ∉ output) (hbuf : buf ≠ [])
    (hsize : buf.length < 2 ^ 31) :
    ∃ result, CmdOutcome output buf result ∧ ∃ n, ∀ fuel, n ≤ fuel →
      fileSystemCmd popen fuel cmd buf (Int32.ofNat buf.length) =
        some (result.map fun buf => (.buf, buf)) := by
  obtain ⟨result, houtcome, n, hrun⟩ := exists_run_cmdRound hzero hbuf hsize
  refine ⟨result, houtcome, n, ?_⟩
  intro fuel hfuel
  rw [fileSystemCmd, hcmd]
  simp only
  rw [hrun fuel hfuel]
  rfl

lemma ReturnsLongestRun.outcome (h : ReturnsLongestRun popen cmd output buf)
    (hcmd : popen cmd = some output) (hzero : 0 ∉ output) (hbuf : buf ≠ [])
    (hsize : buf.length < 2 ^ 31) :
    ∃ k buf', IsGreatest
        {k | k ≤ (cmdChunks output).length ∧ (leading output k).length < buf.length} k ∧
      (leading output (k + 1)).length < 2 ^ 31 ∧ Holds buf' (leading output k) ∧
      (output = [] → buf' = buf) := by
  obtain ⟨result, ⟨k, hgreatest, houtcome⟩, n, hcall⟩ := exists_outcome hcmd hzero hbuf hsize
  obtain ⟨buf', k', hgreatest', hholds, -, n', hcall'⟩ := h
  have hresult := hcall' (max n n') (Nat.le_max_right n n')
  rw [hcall (max n n') (Nat.le_max_left n n')] at hresult
  cases hgreatest.unique hgreatest'
  rcases houtcome with ⟨-, rfl⟩ | ⟨hwrap, final, rfl, -, hempty, -⟩
  · cases hresult
  · cases hresult
    exact ⟨k, buf', hgreatest, hwrap, hholds, hempty⟩

lemma ReturnsLongestRun.started (h : ReturnsLongestRun popen cmd output buf)
    (hcmd : popen cmd = some output) (hzero : 0 ∉ output) (hbuf : buf ≠ [])
    (hsize : buf.length < 2 ^ 31) : output ≠ [] ∨ buf.head? = some 0 := by
  obtain ⟨k, buf', -, -, hholds, hempty⟩ := h.outcome hcmd hzero hbuf hsize
  by_cases hnil : output = []
  · right
    rw [hempty hnil, hnil, leading_nil] at hholds
    exact holds_nil_iff.mp hholds
  · exact Or.inl hnil

lemma ReturnsLongestRun.length_lt (h : ReturnsLongestRun popen cmd output buf)
    (hcmd : popen cmd = some output) (hzero : 0 ∉ output) (hbuf : buf ≠ [])
    (hsize : buf.length < 2 ^ 31) {m : ℕ} (hm : (leading output m).length < buf.length) :
    (leading output (m + 1)).length < 2 ^ 31 := by
  obtain ⟨k, buf', hgreatest, hwrap, -, -⟩ := h.outcome hcmd hzero hbuf hsize
  by_cases hlast : m ≤ (cmdChunks output).length
  · have hle : m + 1 ≤ k + 1 := Nat.succ_le_succ (hgreatest.2 ⟨hlast, hm⟩)
    exact Nat.lt_of_le_of_lt (length_leading_le hle) hwrap
  · rw [leading_succ_of_le (by omega)]
    omega

end Result

/-- The buffer ends up with the longest run of leading chunks exactly if there is some output,
or the buffer is an empty string already, and the run and the chunk after it are shorter than
2^31 bytes. -/
theorem returnsLongestRun_iff (popen : String → Option (List UInt8)) (cmd : String)
    (output buf : List UInt8) (hcmd : popen cmd = some output) (hzero : 0 ∉ output)
    (hbuf : buf ≠ []) (hsize : buf.length < 2 ^ 31) :
    ReturnsLongestRun popen cmd output buf ↔
      (output ≠ [] ∨ buf.head? = some 0) ∧
        ∀ k, (leading output k).length < buf.length →
          (leading output (k + 1)).length < 2 ^ 31 := by
  constructor
  · intro h
    exact ⟨h.started hcmd hzero hbuf hsize, fun k => h.length_lt hcmd hzero hbuf hsize⟩
  · rintro ⟨hstart, hwrap⟩
    obtain ⟨result, ⟨k, hgreatest, houtcome⟩, n, hcall⟩ := exists_outcome hcmd hzero hbuf hsize
    rcases houtcome with ⟨hge, -⟩ | ⟨-, buf', rfl, hlength, hempty, hfull⟩
    · have hlt := hwrap k hgreatest.1.2
      omega
    · refine ⟨buf', k, hgreatest, ?_, hlength, n, hcall⟩
      by_cases hnil : output = []
      · rw [hempty hnil, hnil, leading_nil]
        exact holds_nil_iff.mpr (hstart.resolve_left (fun hne => hne hnil))
      · exact hfull hnil

theorem returns_the_greeting :
    ReturnsLongestRun (fun _ => some [104, 105, 10]) "echo hi" [104, 105, 10]
      (List.replicate 8 1) := by
  refine (returnsLongestRun_iff _ "echo hi" [104, 105, 10] (List.replicate 8 1) rfl (by decide)
    (by decide) (by decide)).mpr ⟨Or.inl (by decide), ?_⟩
  intro k _
  calc
    (leading [104, 105, 10] (k + 1)).length ≤ [(104 : UInt8), 105, 10].length :=
      length_leading_le_length
    _ < 2 ^ 31 := by decide

/-- A command that prints nothing leaves what was in the buffer. -/
theorem silent_command_keeps_buffer :
    (fileSystemCmd (fun _ => some []) 1 "true" [65] 1 = some (.ok (.buf, [65]))) ∧
      ¬ReturnsLongestRun (fun _ => some []) "true" [] [65] := by
  refine ⟨rfl, ?_⟩
  intro h
  have hstarted := h.started rfl (by decide) (by decide) (by decide)
  exact absurd hstarted (by decide)

end GeneralPurposeLibrary.Proofs
