import GeneralPurposeLibrary.Foundation.CellHistory
import GeneralPurposeLibrary.Foundation.GuardedRuns
import GeneralPurposeLibrary.Proofs.MmapLength

/-!
# Mapped files as shared memory

`mmapfile` measures a file, and extends it later. As long as all processes map a file with the
same size, below two gigabytes, the file is never cut in between: however the system calls of
the processes interleave, every mapping stays backed by its file, and a byte is what was last
stored there, through whichever mapping.
-/

namespace GeneralPurposeLibrary.Proofs
open GuardedRuns

variable {Process Inode : Type}

/-- The byte of a file at an offset, which is zero behind its end. -/
def byteAt (s : MmapFiles Inode) (cell : Inode × ℕ) : UInt8 :=
  (s.contents cell.1)[cell.2]?.getD 0

def storedBy : MmapCall Process Inode → Option ((Inode × ℕ) × UInt8)
  | .store mapping offset b => some ((mapping.file, offset), b)
  | _ => none

/-- Every file is mapped with its one size, which fits in an `int`, and `ftruncate` does not
fail. -/
def SameSize (inode : List UInt8 → Inode) (sizeOf : Inode → ℕ) : MmapCall Process Inode → Prop
  | .openFile _ fn size _ =>
    ∀ path, fn = some path → size.toNat = sizeOf (inode path) ∧ size.toNat < 2 ^ 31
  | .ftruncate _ succeeds => succeeds = true
  | _ => True

/-- What a process in `mmapfile` knows of the length of its file. -/
def PhaseOk (sizeOf : Inode → ℕ) (files : MmapFiles Inode) : MmapPhase Inode → Prop
  | .idle => True
  | .opened file size => size.toNat = sizeOf file ∧ size.toNat < 2 ^ 31
  | .measured file size len => size.toNat = sizeOf file ∧ size.toNat < 2 ^ 31 ∧
      if lenBelow len size then (files.contents file).length ≤ sizeOf file
      else sizeOf file ≤ (files.contents file).length
  | .extended file size => size.toNat = sizeOf file ∧ size.toNat < 2 ^ 31 ∧
      sizeOf file ≤ (files.contents file).length

structure SharedFiles (sizeOf : Inode → ℕ) (s : MmapSystem Process Inode) : Prop where
  short : ∀ file, (s.files.contents file).length < 2 ^ 31
  backed : ∀ mapping ∈ s.files.mappings,
    mapping.size ≤ (s.files.contents mapping.file).length
  phases : ∀ p, PhaseOk sizeOf s.files (s.phase p)

section Files

variable {sizeOf : Inode → ℕ} {files files' : MmapFiles Inode} {phase : MmapPhase Inode}

lemma phaseOk_congr (hlength : ∀ file, (files'.contents file).length = (files.contents file).length)
    (h : PhaseOk sizeOf files phase) : PhaseOk sizeOf files' phase := by
  cases phase with
  | idle => trivial
  | opened file size => exact h
  | measured file size len =>
    obtain ⟨hsize, hfits, hknown⟩ := h
    refine ⟨hsize, hfits, ?_⟩
    rwa [hlength]
  | extended file size =>
    obtain ⟨hsize, hfits, hknown⟩ := h
    refine ⟨hsize, hfits, ?_⟩
    rwa [hlength]

lemma phaseOk_measured {file : Inode} {size : UInt64}
    (hshort : (files.contents file).length < 2 ^ 31)
    (h : PhaseOk sizeOf files (.opened file size)) :
    PhaseOk sizeOf files (.measured file size (files.lseekEnd file)) := by
  have hbelow := lenBelow_iff (files.contents file).length (Nat.lt_trans h.2 (by decide))
  rw [Nat.mod_eq_of_lt (Nat.lt_trans hshort (by decide))] at hbelow
  refine ⟨h.1, h.2, ?_⟩
  rw [← h.1]
  split
  · rename_i hlen
    exact Nat.le_of_lt (hbelow.mp hlen).2
  · rename_i hlen
    exact Nat.le_of_not_lt fun hlt => hlen (hbelow.mpr ⟨hshort, hlt⟩)

variable [DecidableEq Inode]

lemma contents_setContents (file other : Inode) (contents : List UInt8) :
    (files.setContents file contents).contents other =
      if other = file then contents else files.contents other := by
  by_cases h : other = file
  · rw [h, contents_setContents_self, if_pos rfl]
  · simp [MmapFiles.setContents, MmapFiles.contents, h]

/-- The file that is filled up with zeros to its size. -/
def filled (sizeOf : Inode → ℕ) (files : MmapFiles Inode) (file other : Inode) : List UInt8 :=
  if other = file then
    files.contents file ++ List.replicate (sizeOf file - (files.contents file).length) 0
  else files.contents other

/-- What the process has measured is still good enough: `ftruncate` only fills up. -/
lemma contents_extend_of_measured {file : Inode} {size : UInt64} {len : Int32}
    (h : PhaseOk sizeOf files (.measured file size len)) :
    (files.extend file len size true).contents = filled sizeOf files file := by
  obtain ⟨hsize, _, hlength⟩ := h
  funext other
  unfold MmapFiles.extend filled
  rw [Bool.and_true]
  by_cases hlen : lenBelow len size = true
  · rw [if_pos hlen, contents_setContents]
    rw [if_pos hlen] at hlength
    by_cases hother : other = file
    · rw [if_pos hother, if_pos hother, ftruncate, hsize, List.take_of_length_le hlength]
    · rw [if_neg hother, if_neg hother]
  · rw [if_neg hlen]
    rw [if_neg hlen] at hlength
    by_cases hother : other = file
    · have hzero : sizeOf file - (files.contents file).length = 0 := by omega
      rw [if_pos hother, hother, hzero, List.replicate_zero, List.append_nil]
    · rw [if_neg hother]

lemma length_filled (file other : Inode) :
    (filled sizeOf files file other).length =
      if other = file then max (files.contents file).length (sizeOf file)
      else (files.contents other).length := by
  unfold filled
  split
  · rw [List.length_append, List.length_replicate]
    omega
  · rfl

lemma byteAt_filled {file : Inode} (hcontents : files'.contents = filled sizeOf files file) :
    byteAt files' = byteAt files := by
  funext cell
  unfold byteAt
  rw [hcontents, filled]
  by_cases hfile : cell.1 = file
  · rw [if_pos hfile, hfile, List.getElem?_append]
    split
    · rfl
    · rename_i hlong
      rw [List.getElem?_eq_none (Nat.le_of_not_lt hlong), List.getElem?_replicate]
      split <;> rfl
  · rw [if_neg hfile]

lemma phaseOk_filled {file : Inode} (hcontents : files'.contents = filled sizeOf files file)
    (h : PhaseOk sizeOf files phase) : PhaseOk sizeOf files' phase := by
  cases phase with
  | idle => trivial
  | opened other size => exact h
  | measured other size len =>
    obtain ⟨hsize, hfits, hlength⟩ := h
    refine ⟨hsize, hfits, ?_⟩
    rw [hcontents, length_filled]
    by_cases hother : other = file
    · rw [hother] at hlength ⊢
      rw [if_pos rfl]
      split at hlength
      · rename_i hlen
        rw [if_pos hlen]
        omega
      · rename_i hlen
        rw [if_neg hlen]
        omega
    · rwa [if_neg hother]
  | extended other size =>
    obtain ⟨hsize, hfits, hlength⟩ := h
    refine ⟨hsize, hfits, ?_⟩
    rw [hcontents, length_filled]
    by_cases hother : other = file
    · rw [hother] at hlength ⊢
      rw [if_pos rfl]
      omega
    · rwa [if_neg hother]

lemma contents_storeByte (mapping : Mapping Inode) (offset : ℕ) (b : UInt8) (other : Inode) :
    (storeByte files mapping offset b).contents other =
      if other = mapping.file then (files.contents other).set offset b
      else files.contents other := by
  unfold storeByte MmapFiles.contents
  by_cases hother : other = mapping.file
  · rw [hother, if_pos rfl]
    simp only [Function.update_self]
    cases files.file mapping.file with
    | none => rfl
    | some contents => rfl
  · rw [if_neg hother]
    simp only [Function.update_of_ne hother]

lemma length_storeByte (mapping : Mapping Inode) (offset : ℕ) (b : UInt8) (other : Inode) :
    ((storeByte files mapping offset b).contents other).length =
      (files.contents other).length := by
  rw [contents_storeByte]
  split
  · rw [List.length_set]
  · rfl

lemma byteAt_storeByte {mapping : Mapping Inode} {offset : ℕ} (b : UInt8)
    (hoffset : offset < (files.contents mapping.file).length) :
    byteAt (storeByte files mapping offset b) =
      Function.update (byteAt files) (mapping.file, offset) b := by
  funext ⟨other, i⟩
  simp only [byteAt, contents_storeByte, Function.update_apply, Prod.mk.injEq]
  by_cases hother : other = mapping.file
  · subst hother
    simp only [if_true, true_and, List.getElem?_set]
    by_cases hi : i = offset
    · subst hi
      simp [hoffset]
    · simp [hi, Ne.symm hi]
  · simp [hother]

lemma sharedFiles_store {s : MmapSystem Process Inode} (hinv : SharedFiles sizeOf s)
    {mapping : Mapping Inode} {offset : ℕ} (b : UInt8)
    (hmapping : mapping ∈ s.files.mappings) (hoffset : offset < mapping.size) :
    SharedFiles sizeOf { s with files := storeByte s.files mapping offset b } ∧
      byteAt (storeByte s.files mapping offset b) =
        Function.update (byteAt s.files) (mapping.file, offset) b := by
  have hlength : ∀ file, ((storeByte s.files mapping offset b).contents file).length =
      (s.files.contents file).length := length_storeByte mapping offset b
  refine ⟨⟨?_, ?_, ?_⟩, ?_⟩
  · intro file
    rw [hlength]
    exact hinv.short file
  · intro other hmem
    rw [hlength]
    exact hinv.backed other hmem
  · exact fun p => phaseOk_congr hlength (hinv.phases p)
  · exact byteAt_storeByte b (Nat.lt_of_lt_of_le hoffset (hinv.backed mapping hmapping))

end Files

section Steps

variable {inode : List UInt8 → Inode} {sizeOf : Inode → ℕ} {s s' : MmapSystem Process Inode}

lemma checkedPath_some {fn : Option (List UInt8)} {size : UInt64} {path : List UInt8}
    (h : checkedPath fn size = some path) : fn = some path := by
  unfold checkedPath at h
  split at h
  · cases h
  · split at h
    · cases h
    · split at h
      · cases h
      · exact h

variable [DecidableEq Process]

lemma SharedFiles.setPhase (hinv : SharedFiles sizeOf s) {files : MmapFiles Inode} (p : Process)
    {phase : MmapPhase Inode} (hcontents : files.contents = s.files.contents)
    (hmappings : files.mappings = s.files.mappings) (hphase : PhaseOk sizeOf s.files phase) :
    SharedFiles sizeOf (⟨files, Function.update s.phase p phase⟩ : MmapSystem Process Inode) ∧
      byteAt files = byteAt s.files := by
  have hlength : ∀ file, (files.contents file).length = (s.files.contents file).length := by
    intro file
    rw [hcontents]
  refine ⟨⟨?_, ?_, ?_⟩, ?_⟩
  · intro file
    rw [hlength]
    exact hinv.short file
  · intro mapping hmem
    rw [hlength]
    rw [hmappings] at hmem
    exact hinv.backed mapping hmem
  · intro q
    simp only [Function.update_apply]
    split
    · exact phaseOk_congr hlength hphase
    · exact phaseOk_congr hlength (hinv.phases q)
  · funext cell
    rw [byteAt, byteAt, hcontents]

variable [DecidableEq Inode]

lemma sharedFiles_openFile (hinv : SharedFiles sizeOf s) {p : Process} {fn : Option (List UInt8)}
    {size : UInt64} {opened : Bool}
    (hsize : SameSize inode sizeOf (.openFile p fn size opened : MmapCall Process Inode))
    (hstep : mappingStep inode s (.openFile p fn size opened) = some s') :
    SharedFiles sizeOf s' ∧ byteAt s'.files = byteAt s.files := by
  rw [mappingStep] at hstep
  split at hstep
  · split at hstep
    · cases hstep
      exact ⟨hinv, rfl⟩
    · rename_i path hpath
      split at hstep
      · cases hstep
        exact ⟨hinv, rfl⟩
      · cases hstep
        exact hinv.setPhase p (contents_create s.files (inode path)) rfl
          (hsize path (checkedPath_some hpath))
  · cases hstep

lemma sharedFiles_ftruncate (hinv : SharedFiles sizeOf s) {p : Process}
    (hstep : mappingStep inode s (.ftruncate p true) = some s') :
    SharedFiles sizeOf s' ∧ byteAt s'.files = byteAt s.files := by
  rw [mappingStep] at hstep
  split at hstep
  · rename_i file size len hphase
    cases hstep
    have hok := hinv.phases p
    rw [hphase] at hok
    have hcontents := contents_extend_of_measured hok
    have hmappings : (s.files.extend file len size true).mappings = s.files.mappings := by
      unfold MmapFiles.extend
      split <;> rfl
    refine ⟨⟨?_, ?_, ?_⟩, byteAt_filled hcontents⟩
    · intro other
      have hshort := hinv.short other
      have hfile := hinv.short file
      rw [hcontents, length_filled]
      split
      · have hsize := hok.1
        have hfits := hok.2.1
        omega
      · exact hshort
    · intro mapping hmem
      have hle := hinv.backed mapping (hmappings ▸ hmem)
      rw [hcontents, length_filled]
      split
      · rename_i hfile
        rw [hfile] at hle
        omega
      · exact hle
    · intro q
      simp only [Function.update_apply]
      split
      · refine ⟨hok.1, hok.2.1, ?_⟩
        rw [hcontents, length_filled, if_pos rfl]
        exact Nat.le_max_right _ _
      · exact phaseOk_filled hcontents (hinv.phases q)
  · cases hstep

lemma sharedFiles_mmap (hinv : SharedFiles sizeOf s) {p : Process} {succeeds : Bool}
    (hstep : mappingStep inode s (.mmap p succeeds) = some s') :
    SharedFiles sizeOf s' ∧ byteAt s'.files = byteAt s.files := by
  rw [mappingStep] at hstep
  split at hstep
  · rename_i file size hphase
    cases hstep
    have hok := hinv.phases p
    rw [hphase] at hok
    have hidle : PhaseOk sizeOf s.files .idle := trivial
    cases succeeds with
    | false => exact hinv.setPhase p rfl rfl hidle
    | true =>
      have hshared : SharedFiles sizeOf
          (⟨s.files, Function.update s.phase p .idle⟩ : MmapSystem Process Inode) :=
        (hinv.setPhase p rfl rfl hidle).1
      refine ⟨⟨hshared.short, ?_, hshared.phases⟩, rfl⟩
      intro mapping hmem
      rcases List.mem_append.mp hmem with hold | hnew
      · exact hinv.backed mapping hold
      · rw [List.mem_singleton.mp hnew]
        exact Nat.le_trans (Nat.le_of_eq hok.1) hok.2.2
  · cases hstep

lemma sharedFiles_step {call : MmapCall Process Inode} (hinv : SharedFiles sizeOf s)
    (hsize : SameSize inode sizeOf call) (hstep : mappingStep inode s call = some s') :
    SharedFiles sizeOf s' ∧
      byteAt s'.files = CellHistory.apply storedBy (byteAt s.files) call := by
  cases call with
  | openFile p fn size opened => exact sharedFiles_openFile hinv hsize hstep
  | lseek p =>
    rw [mappingStep] at hstep
    split at hstep
    · rename_i file size hphase
      cases hstep
      have hok := hinv.phases p
      rw [hphase] at hok
      exact hinv.setPhase p rfl rfl (phaseOk_measured (hinv.short file) hok)
    · cases hstep
  | ftruncate p succeeds =>
    cases hsize
    exact sharedFiles_ftruncate hinv hstep
  | mmap p succeeds => exact sharedFiles_mmap hinv hstep
  | unmap mapping =>
    rw [mappingStep, Option.ite_none_right_eq_some] at hstep
    obtain ⟨_, hstep⟩ := hstep
    cases hstep
    refine ⟨⟨hinv.short, ?_, hinv.phases⟩, rfl⟩
    intro mapping' hmem
    exact hinv.backed mapping' (List.mem_of_mem_erase hmem)
  | store mapping offset b =>
    rw [mappingStep, Option.ite_none_right_eq_some] at hstep
    obtain ⟨⟨hmapping, hoffset⟩, hstep⟩ := hstep
    cases hstep
    exact sharedFiles_store hinv b hmapping hoffset

lemma sharedFiles_run {calls : List (MmapCall Process Inode)} (hinv : SharedFiles sizeOf s)
    (hsize : ∀ call ∈ calls, SameSize inode sizeOf call)
    (hrun : run (mappingStep inode) s calls = some s') :
    SharedFiles sizeOf s' ∧
      byteAt s'.files = calls.foldl (CellHistory.apply storedBy) (byteAt s.files) := by
  induction calls generalizing s with
  | nil =>
    cases hrun
    exact ⟨hinv, rfl⟩
  | cons call calls ih =>
    obtain ⟨s₁, hstep, hrest⟩ := exists_step_of_run_cons hrun
    obtain ⟨hinv₁, hbytes⟩ := sharedFiles_step hinv (hsize call List.mem_cons_self) hstep
    obtain ⟨hinv', hbytes'⟩ := ih hinv₁ (fun c hc => hsize c (List.mem_cons_of_mem call hc)) hrest
    refine ⟨hinv', ?_⟩
    rw [hbytes', hbytes, List.foldl_cons]

/-- Without another process in between, the steps do what `mmapfile` does. -/
theorem mmapfile_uninterrupted {p : Process} (hidle : s.phase p = .idle) {fn : List UInt8}
    {size : UInt64} (hpath : checkedPath (some fn) size = some fn) (truncated mapped : Bool) :
    run (mappingStep inode) s
        [.openFile p (some fn) size true, .lseek p, .ftruncate p truncated, .mmap p mapped] =
      some { s with
        files := (mmapfile s.files inode (some fn) size ⟨true, truncated, mapped⟩).2 } := by
  have hback : Function.update s.phase p .idle = s.phase := by
    rw [← hidle, Function.update_eq_self]
  simp only [run, mappingStep, hidle, hpath, Bool.not_true, Bool.false_eq_true, if_false,
    Function.update_self, Function.update_idem, hback, mmapfile]
  cases mapped <;> rfl

end Steps

/-- However the system calls of processes that map, unmap and store interleave, as long as
every file is mapped with one size and files and sizes stay below two gigabytes: every mapping
is backed by its file to its end, and every byte of a file is the one last stored there through
any mapping, or else the one the file began with. -/
theorem mappings_share_bytes {Process Inode : Type} [DecidableEq Process] [DecidableEq Inode]
    (inode : List UInt8 → Inode) (sizeOf : Inode → ℕ) (file : Inode → Option (List UInt8))
    (hshort : ∀ f contents, file f = some contents → contents.length < 2 ^ 31)
    (calls : List (MmapCall Process Inode)) (hsize : ∀ call ∈ calls, SameSize inode sizeOf call)
    (s : MmapSystem Process Inode)
    (hrun : run (mappingStep inode) ⟨⟨file, []⟩, fun _ => .idle⟩ calls = some s) :
    (∀ mapping ∈ s.files.mappings, mapping.size ≤ (s.files.contents mapping.file).length) ∧
    ∀ cell, byteAt s.files cell =
      (CellHistory.lastWritten storedBy calls cell).getD (byteAt ⟨file, []⟩ cell) := by
  have hinit : SharedFiles sizeOf
      (⟨⟨file, []⟩, fun _ => .idle⟩ : MmapSystem Process Inode) := by
    refine ⟨?_, by simp, fun _ => trivial⟩
    intro f
    change ((file f).getD []).length < 2 ^ 31
    cases hfile : file f with
    | none => decide
    | some contents => exact hshort f contents hfile
  obtain ⟨hinv, hbytes⟩ := sharedFiles_run hinit hsize hrun
  refine ⟨hinv.backed, ?_⟩
  intro cell
  rw [hbytes, CellHistory.foldl_apply]

/-- Process 1 maps and stores between the measurement and the `ftruncate` of process 0. -/
def overlappingCalls : List (MmapCall ℕ (List UInt8)) :=
  [.openFile 0 (some [97]) 4 true, .openFile 1 (some [97]) 4 true, .lseek 0, .lseek 1,
    .ftruncate 1 true, .mmap 1 true, .store ⟨[97], 4⟩ 1 9, .ftruncate 0 true, .mmap 0 true]

theorem overlapping_mappings_share_bytes :
    ∃ s, run (mappingStep id) ⟨⟨fun _ => some [7], []⟩, fun _ => .idle⟩ overlappingCalls = some s ∧
      s.files.mappings = [⟨[97], 4⟩, ⟨[97], 4⟩] ∧ byteAt s.files ([97], 1) = 9 := by
  have hsize : ∀ call ∈ overlappingCalls, SameSize id (fun _ => 4) call := by
    simp [overlappingCalls, SameSize]
  exact ⟨_, rfl, rfl, (mappings_share_bytes id (fun _ => 4) (fun _ => some [7]) (by simp)
    overlappingCalls hsize _ rfl).2 ([97], 1)⟩

end GeneralPurposeLibrary.Proofs
