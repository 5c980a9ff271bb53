import GeneralPurposeLibrary.FileCopy

/-!
# When a file is copied

The loop of `file_copy_content` asks only for the end of the source, the destination is
truncated before the source is read, and nothing asks how much was written. So a read error
keeps the loop going for ever, a file copied onto itself is emptied, and a full disk leaves a
part of the file; in all other cases the copy is complete.
-/

namespace GeneralPurposeLibrary.Proofs
open FuelLoop

/-- The call ends, whatever the fuel from some bound on, and when it returns 0 the destination
holds the bytes that the source held before the call. -/
def CopiesOrFails (b : SourceBehaviour) (w : DestinationBehaviour) (disk : Disk)
    (srcFile dstFile : String) : Prop :=
  ∃ ret disk', (∃ n, ∀ fuel, n ≤ fuel →
      fileCopyContent b w fuel disk srcFile dstFile = some (ret, disk')) ∧
    (ret = 0 → ∃ bytes, disk.content srcFile = some bytes ∧ disk'.content dstFile = some bytes)

/-- No read error begins in a file of that length or right behind it. -/
def ReadsToEnd (b : SourceBehaviour) (length : ℕ) : Prop :=
  ∀ position, b.failsAt = some position → length < position

lemma endsAtEof_iff (b : SourceBehaviour) (length : ℕ) :
    b.endsAtEof length = true ↔ ReadsToEnd b length := by
  unfold SourceBehaviour.endsAtEof ReadsToEnd
  cases b.failsAt with
  | none => simp
  | some position => simp

lemma limit_le (b : SourceBehaviour) (length : ℕ) : b.limit length ≤ length := by
  unfold SourceBehaviour.limit
  cases b.failsAt with
  | none => exact Nat.le_refl _
  | some position => exact Nat.min_le_right _ _

lemma limit_of_readsToEnd {b : SourceBehaviour} {length : ℕ} (h : ReadsToEnd b length) :
    b.limit length = length := by
  unfold SourceBehaviour.limit
  cases hfails : b.failsAt with
  | none => rfl
  | some position => exact Nat.min_eq_right (Nat.le_of_lt (h position hfails))

/-! ### What is read and what is written -/

/-- The position in a file of that length after `k` reads. -/
def readOffset (b : SourceBehaviour) (length : ℕ) : ℕ → ℕ
  | 0 => 0
  | k + 1 =>
    readOffset b length k + min (b.chunk k) (b.limit length - readOffset b length k)

/-- How many bytes of a file of that length the `k`-th read gets, and the `k`-th write is
given. -/
def offered (b : SourceBehaviour) (length k : ℕ) : ℕ :=
  min (b.chunk k) (b.limit length - readOffset b length k)

/-- Every write takes all it is given, and all that was taken is written out in the end. -/
def WritesOut (b : SourceBehaviour) (w : DestinationBehaviour) (length : ℕ) : Prop :=
  (∀ k, offered b length k ≤ w.accepts k) ∧ (w.lost = 0 ∨ length = 0)

/-- What the first `k` writes have taken. -/
def takenBytes (b : SourceBehaviour) (w : DestinationBehaviour) (bytes : List UInt8) :
    ℕ → List UInt8
  | 0 => []
  | k + 1 => takenBytes b w bytes k ++
      ((bytes.drop (readOffset b bytes.length k)).take (offered b bytes.length k)).take
        (w.accepts k)

section Written

variable (b : SourceBehaviour) (w : DestinationBehaviour) (bytes : List UInt8)

lemma readOffset_succ (length k : ℕ) :
    readOffset b length (k + 1) = readOffset b length k + offered b length k := rfl

lemma readOffset_le_limit (length k : ℕ) : readOffset b length k ≤ b.limit length := by
  induction k with
  | zero => exact Nat.zero_le _
  | succ k ih =>
    rw [readOffset_succ, offered]
    omega

lemma readOffset_mono (length k n : ℕ) : readOffset b length k ≤ readOffset b length (k + n) := by
  induction n with
  | zero => exact Nat.le_refl _
  | succ n ih =>
    have hsucc := readOffset_succ b length (k + n)
    rw [← Nat.add_assoc]
    omega

lemma length_chunk (k : ℕ) :
    ((bytes.drop (readOffset b bytes.length k)).take (offered b bytes.length k)).length =
      offered b bytes.length k := by
  have hlimit := limit_le b bytes.length
  rw [List.length_take, List.length_drop, offered]
  omega

lemma length_takenBytes_succ (k : ℕ) :
    (takenBytes b w bytes (k + 1)).length =
      (takenBytes b w bytes k).length + min (w.accepts k) (offered b bytes.length k) := by
  rw [takenBytes, List.length_append, List.length_take, length_chunk]

lemma length_takenBytes_le (k : ℕ) :
    (takenBytes b w bytes k).length ≤ readOffset b bytes.length k := by
  induction k with
  | zero => exact Nat.le_refl _
  | succ k ih =>
    rw [length_takenBytes_succ, readOffset_succ]
    omega

lemma takenBytes_nil (k : ℕ) : takenBytes b w [] k = [] := by
  have hle := length_takenBytes_le b w [] k
  have hlimit := Nat.le_trans (readOffset_le_limit b _ k) (limit_le b ([] : List UInt8).length)
  exact List.length_eq_zero_iff.mp (Nat.le_zero.mp (Nat.le_trans hle hlimit))

lemma length_takenBytes_lt {k n : ℕ} (hshort : w.accepts k < offered b bytes.length k)
    (hk : k < n) : (takenBytes b w bytes n).length < readOffset b bytes.length n := by
  induction n with
  | zero => omega
  | succ n ih =>
    have hle := length_takenBytes_le b w bytes n
    rw [length_takenBytes_succ, readOffset_succ]
    by_cases hkn : k = n
    · rw [← hkn]
      rw [← hkn] at hle
      omega
    · have hlt := ih (by omega)
      omega

lemma takenBytes_eq_take (n : ℕ) (h : ∀ k < n, offered b bytes.length k ≤ w.accepts k) :
    takenBytes b w bytes n = bytes.take (readOffset b bytes.length n) := by
  induction n with
  | zero => rfl
  | succ n ih =>
    have hall : ((bytes.drop (readOffset b bytes.length n)).take
        (offered b bytes.length n)).length ≤ w.accepts n := by
      rw [length_chunk]
      exact h n (Nat.lt_succ_self n)
    rw [takenBytes, ih (fun k hk => h k (Nat.lt_succ_of_lt hk)), List.take_of_length_le hall,
      readOffset_succ, List.take_add]

/-- Once the end of the file is reached, what was written out is the file exactly if nothing
was refused or lost. -/
lemma written_eq_iff {n : ℕ} (hend : readOffset b bytes.length n = bytes.length) :
    (takenBytes b w bytes n).take ((takenBytes b w bytes n).length - w.lost) = bytes ↔
      WritesOut b w bytes.length := by
  have hle := length_takenBytes_le b w bytes n
  constructor
  · intro heq
    have hlength := congrArg List.length heq
    rw [List.length_take] at hlength
    refine ⟨?_, by omega⟩
    intro k
    by_contra hshort
    have hpos : 0 < offered b bytes.length k := by omega
    have hk : k < n := by
      by_contra hge
      obtain ⟨m, rfl⟩ := Nat.exists_eq_add_of_le (Nat.le_of_not_lt hge)
      have hmono := readOffset_mono b bytes.length n m
      have hlimit := limit_le b bytes.length
      rw [offered] at hpos
      omega
    have hlt := length_takenBytes_lt b w bytes (Nat.lt_of_not_le hshort) hk
    omega
  · rintro ⟨haccepts, hlost⟩
    have htaken : takenBytes b w bytes n = bytes := by
      rw [takenBytes_eq_take b w bytes n (fun k _ => haccepts k), hend, List.take_length]
    rw [htaken]
    apply List.take_of_length_le
    omega

end Written

/-! ### The rounds of the loop -/

/-- What was copied so far. The destination is another file than the source, or the source is
empty. -/
structure Copying (b : SourceBehaviour) (w : DestinationBehaviour) (bytes : List UInt8)
    (i j : ℕ) (dstFile : String) (s : CopyState) : Prop where
  src_inode : s.src.inode = i
  dst_inode : s.dst = j
  dst_path : s.disk.lookup dstFile = some j
  distinct : i ≠ j ∨ bytes = []
  source : s.disk.data i = bytes
  position : s.src.position = readOffset b bytes.length s.src.reads
  taken : s.disk.data j = takenBytes b w bytes s.src.reads
  written : s.written = (takenBytes b w bytes s.src.reads).length

section Rounds

variable {b : SourceBehaviour} {w : DestinationBehaviour} {bytes : List UInt8} {i j : ℕ}
  {dstFile : String} {s : CopyState}

lemma copyRound_eq (h : Copying b w bytes i j dstFile s) (hfeof : s.src.feof = false) :
    copyRound b w s = .inl
      { disk := s.disk.setData j (takenBytes b w bytes (s.src.reads + 1))
        src :=
          { inode := i
            position := readOffset b bytes.length (s.src.reads + 1)
            reads := s.src.reads + 1
            feof := decide (b.limit bytes.length - s.src.position < b.chunk s.src.reads) &&
              b.endsAtEof bytes.length }
        dst := j
        written := (takenBytes b w bytes (s.src.reads + 1)).length } := by
  have hmore : ¬s.src.feof = true := by
    rw [hfeof]
    exact Bool.false_ne_true
  have hread : freadSource b s.disk s.src =
      ((bytes.drop (readOffset b bytes.length s.src.reads)).take
          (offered b bytes.length s.src.reads),
        ⟨i, readOffset b bytes.length (s.src.reads + 1), s.src.reads + 1,
          decide (b.limit bytes.length - s.src.position < b.chunk s.src.reads) &&
            b.endsAtEof bytes.length⟩) := by
    simp only [freadSource, readOffset_succ, offered, h.src_inode, h.source, h.position, hfeof,
      Bool.false_or]
  have hnew : ∀ (old more : List UInt8), old.take old.length ++ more ++
      old.drop (old.length + more.length) = old ++ more := by
    intro old more
    rw [List.take_length, List.drop_of_length_le (Nat.le_add_right _ _), List.append_nil]
  rw [copyRound, if_neg hmore, hread]
  simp only [h.dst_inode, h.taken, h.written, hnew]
  rw [← List.length_append]
  rfl

lemma copyRound_copying (h : Copying b w bytes i j dstFile s) (hfeof : s.src.feof = false) :
    ∃ s', copyRound b w s = .inl s' ∧ Copying b w bytes i j dstFile s' ∧
      s'.src.position = s.src.position + offered b bytes.length s.src.reads ∧
      s'.src.feof = (decide (b.limit bytes.length - s.src.position < b.chunk s.src.reads) &&
        b.endsAtEof bytes.length) := by
  refine ⟨_, copyRound_eq h hfeof, ?_, ?_, rfl⟩
  · constructor
    case src_inode => rfl
    case dst_inode => rfl
    case dst_path => exact h.dst_path
    case distinct => exact h.distinct
    case source =>
      change Function.update s.disk.data j _ i = bytes
      by_cases hij : i = j
      · have hempty : bytes = [] := h.distinct.resolve_left (fun hne => hne hij)
        rw [hij, Function.update_self, hempty, takenBytes_nil]
      · rw [Function.update_of_ne hij, h.source]
    case position => rfl
    case taken => exact Function.update_self _ _ _
    case written => rfl
  · rw [h.position]
    rfl

lemma copyRound_of_feof (hfeof : s.src.feof = true) : copyRound b w s = .inr s.disk := by
  rw [copyRound, if_pos hfeof]

lemma position_le (h : Copying b w bytes i j dstFile s) : s.src.position ≤ bytes.length := by
  rw [h.position]
  exact Nat.le_trans (readOffset_le_limit b bytes.length s.src.reads) (limit_le b bytes.length)

lemma copyRound_progress (hends : ReadsToEnd b bytes.length)
    (h : Copying b w bytes i j dstFile s) (hfeof : s.src.feof = false) :
    ∃ s', copyRound b w s = .inl s' ∧ Copying b w bytes i j dstFile s' ∧
      if s'.src.feof then s'.src.position = bytes.length
      else s.src.position < s'.src.position := by
  obtain ⟨s', hbody, hcopy, hnext, hflag⟩ := copyRound_copying h hfeof
  refine ⟨s', hbody, hcopy, ?_⟩
  have hpos := b.chunk_pos s.src.reads
  have hle := position_le h
  rw [offered, ← h.position, limit_of_readsToEnd hends] at hnext
  rw [limit_of_readsToEnd hends, (endsAtEof_iff b bytes.length).mpr hends, Bool.and_true] at hflag
  by_cases hshort : bytes.length - s.src.position < b.chunk s.src.reads
  · rw [hflag, decide_eq_true hshort, if_pos rfl]
    omega
  · rw [hflag, decide_eq_false hshort, if_neg Bool.false_ne_true]
    omega

lemma exists_run_copyRound (hends : ReadsToEnd b bytes.length)
    (h : Copying b w bytes i j dstFile s) (hfeof : s.src.feof = false) :
    ∃ disk', (disk'.lookup dstFile = some j ∧ ∃ k, readOffset b bytes.length k = bytes.length ∧
        disk'.data j = takenBytes b w bytes k) ∧
      ∃ n, ∀ fuel, n ≤ fuel → run (copyRound b w) fuel s = some disk' := by
  let I := fun s => Copying b w bytes i j dstFile s ∧
    (s.src.feof = true → s.src.position = bytes.length)
  let variant := fun s : CopyState =>
    if s.src.feof then 0 else bytes.length - s.src.position + 1
  have hround : ∀ s, I s → (∃ s', copyRound b w s = .inl s' ∧ I s' ∧ variant s' < variant s) ∨
      ∃ disk', copyRound b w s = .inr disk' ∧ disk'.lookup dstFile = some j ∧
        ∃ k, readOffset b bytes.length k = bytes.length ∧
          disk'.data j = takenBytes b w bytes k := by
    rintro s ⟨hcopy, hend⟩
    cases hflag : s.src.feof with
    | true =>
      right
      refine ⟨s.disk, copyRound_of_feof hflag, hcopy.dst_path, s.src.reads, ?_, hcopy.taken⟩
      rw [← hcopy.position, hend hflag]
    | false =>
      left
      obtain ⟨s', hbody, hcopy', hprogress⟩ := copyRound_progress hends hcopy hflag
      have hle := position_le hcopy'
      have hvariant : variant s = bytes.length - s.src.position + 1 :=
        if_neg (by rw [hflag]; exact Bool.false_ne_true)
      refine ⟨s', hbody, ⟨hcopy', ?_⟩, ?_⟩
      · intro hflag'
        rwa [if_pos hflag'] at hprogress
      · by_cases hflag' : s'.src.feof = true
        · have hvariant' : variant s' = 0 := if_pos hflag'
          omega
        · have hvariant' : variant s' = bytes.length - s'.src.position + 1 := if_neg hflag'
          rw [if_neg hflag'] at hprogress
          omega
  have hinit : I s := by
    refine ⟨h, ?_⟩
    intro htrue
    rw [hfeof] at htrue
    cases htrue
  obtain ⟨disk', hdisk, hrun⟩ := exists_run hround hinit
  exact ⟨disk', hdisk, variant s + 1, fun fuel hfuel => hrun fuel hfuel⟩

/-- A read error is not an end of file: the loop never ends. -/
lemma run_copyRound_of_error (herror : ¬ReadsToEnd b bytes.length)
    (h : Copying b w bytes i j dstFile s) (hfeof : s.src.feof = false) (fuel : ℕ) :
    run (copyRound b w) fuel s = none := by
  refine run_eq_none (J := fun s => Copying b w bytes i j dstFile s ∧ s.src.feof = false) ?_
    ⟨h, hfeof⟩ fuel
  rintro s ⟨hcopy, hmore⟩
  obtain ⟨s', hbody, hcopy', -, hflag'⟩ := copyRound_copying hcopy hmore
  refine ⟨s', hbody, hcopy', ?_⟩
  have heof : b.endsAtEof bytes.length = false := by
    rw [← Bool.not_eq_true, endsAtEof_iff]
    exact herror
  rw [hflag', heof, Bool.and_false]

end Rounds

/-! ### Opening the two files -/

section Opening

variable {b : SourceBehaviour} {w : DestinationBehaviour} {disk : Disk}
  {srcFile dstFile : String} {i : ℕ}

/-- What the source holds once the destination is open. -/
def truncated (disk : Disk) (i : ℕ) (dstFile : String) : List UInt8 :=
  if disk.lookup dstFile = some i then [] else disk.data i

lemma fopen_rb (hread : disk.permits srcFile .rb = true) :
    disk.fopen srcFile .rb = (disk.lookup srcFile, disk) := by
  unfold Disk.fopen
  rw [if_pos hread]

lemma fopen_not_permitted {path : String} {mode : OpenMode}
    (h : ¬disk.permits path mode = true) : disk.fopen path mode = (none, disk) := by
  unfold Disk.fopen
  rw [if_neg h]

lemma fopen_wb (b : SourceBehaviour) (w : DestinationBehaviour)
    (hsrc : disk.lookup srcFile = some i) (hdst : disk.permits dstFile .wb = true) :
    ∃ j disk', disk.fopen dstFile .wb = (some j, disk') ∧
      Copying b w (truncated disk i dstFile) i j dstFile ⟨disk', ⟨i, 0, 0, false⟩, j, 0⟩ := by
  cases hlookup : disk.lookup dstFile with
  | some j =>
    refine ⟨j, disk.setData j [], ?_, rfl, rfl, hlookup, ?_, ?_, rfl, ?_, rfl⟩
    · unfold Disk.fopen
      rw [if_pos hdst, hlookup]
    · by_cases hij : i = j
      · right
        rw [truncated, if_pos (by rw [hlookup, hij])]
      · exact Or.inl hij
    · by_cases hij : i = j
      · rw [truncated, if_pos (by rw [hlookup, hij]), hij]
        exact Function.update_self _ _ _
      · rw [truncated, if_neg (by rw [hlookup]; exact fun h => hij (Option.some.inj h).symm)]
        exact Function.update_of_ne hij _ _
    · exact Function.update_self _ _ _
  | none =>
    have hne : i ≠ disk.next := Nat.ne_of_lt (disk.fresh srcFile i hsrc)
    refine ⟨disk.next, disk.create dstFile, ?_, rfl, rfl, ?_, Or.inl hne, ?_, rfl, ?_, rfl⟩
    · unfold Disk.fopen
      rw [if_pos hdst, hlookup]
    · exact Function.update_self _ _ _
    · rw [truncated, if_neg (by rw [hlookup]; exact Option.some_ne_none i ∘ Eq.symm)]
      exact Function.update_of_ne hne _ _
    · exact Function.update_self _ _ _

lemma fileCopyContent_open (hsrc : disk.lookup srcFile = some i)
    (hread : disk.permits srcFile .rb = true) {j : ℕ} {disk' : Disk}
    (hwrite : disk.fopen dstFile .wb = (some j, disk')) (fuel : ℕ) :
    fileCopyContent b w fuel disk srcFile dstFile =
      (run (copyRound b w) fuel ⟨disk', ⟨i, 0, 0, false⟩, j, 0⟩).map fun disk =>
        (0, closeDestination w disk j) := by
  have hopen : disk.fopen srcFile .rb = (some i, disk) := by
    rw [fopen_rb hread, hsrc]
  have hsome : ¬(disk.lookup srcFile).isNone = true := by
    rw [hsrc]
    exact Bool.false_ne_true
  rw [fileCopyContent, if_neg hsome, hopen]
  simp only
  rw [hwrite]

lemma fileCopyContent_not_open (h : ¬((disk.lookup srcFile).isSome = true ∧
      disk.permits srcFile .rb = true ∧ disk.permits dstFile .wb = true)) :
    ∃ disk', ∀ fuel, fileCopyContent b w fuel disk srcFile dstFile = some (-1, disk') := by
  cases hsrc : disk.lookup srcFile with
  | none =>
    refine ⟨disk, fun fuel => ?_⟩
    rw [fileCopyContent, if_pos (by rw [hsrc]; rfl)]
  | some i =>
    have hsome : ¬(disk.lookup srcFile).isNone = true := by
      rw [hsrc]
      exact Bool.false_ne_true
    refine ⟨disk, fun fuel => ?_⟩
    rw [fileCopyContent, if_neg hsome]
    by_cases hread : disk.permits srcFile .rb = true
    · have hopen : disk.fopen srcFile .rb = (some i, disk) := by
        rw [fopen_rb hread, hsrc]
      have hwrite : ¬disk.permits dstFile .wb = true := by
        intro hwrite
        exact h ⟨by rw [hsrc]; rfl, hread, hwrite⟩
      rw [hopen]
      simp only
      rw [fopen_not_permitted hwrite]
    · rw [fopen_not_permitted hread]

lemma truncated_cases (disk : Disk) (i : ℕ) (dstFile : String) :
    truncated disk i dstFile = [] ∨ truncated disk i dstFile = disk.data i := by
  unfold truncated
  split
  · exact Or.inl rfl
  · exact Or.inr rfl

lemma content_closeDestination {j : ℕ} (h : disk.lookup dstFile = some j) :
    (closeDestination w disk j).content dstFile =
      some ((disk.data j).take ((disk.data j).length - w.lost)) := by
  have hlookup : (closeDestination w disk j).lookup dstFile = some j := h
  rw [Disk.content, hlookup, Option.map_some]
  exact congrArg some (Function.update_self _ _ _)

lemma copiesOrFails_open_iff (hsrc : disk.lookup srcFile = some i)
    (hread : disk.permits srcFile .rb = true) (hdst : disk.permits dstFile .wb = true) :
    CopiesOrFails b w disk srcFile dstFile ↔
      ReadsToEnd b (truncated disk i dstFile).length ∧
        truncated disk i dstFile = disk.data i ∧ WritesOut b w (disk.data i).length := by
  obtain ⟨j, disk', hwrite, hcopy⟩ := fopen_wb b w hsrc hdst
  have hcall := fileCopyContent_open (b := b) (w := w) hsrc hread hwrite
  have hcontent : disk.content srcFile = some (disk.data i) := by
    rw [Disk.content, hsrc]
    rfl
  by_cases hends : ReadsToEnd b (truncated disk i dstFile).length
  · obtain ⟨disk'', ⟨hpath, k, hend, hdata⟩, n, hrun⟩ := exists_run_copyRound hends hcopy rfl
    have hcopied := content_closeDestination (w := w) hpath
    have hiff := written_eq_iff b w (truncated disk i dstFile) hend
    rw [hdata] at hcopied
    constructor
    · rintro ⟨ret, final, ⟨m, hret⟩, hzero⟩
      have hfinal := hret (max m n) (Nat.le_max_left m n)
      rw [hcall, hrun (max m n) (Nat.le_max_right m n)] at hfinal
      cases hfinal
      obtain ⟨bytes, hbytes, hbytes'⟩ := hzero rfl
      rw [hcontent] at hbytes
      rw [hcopied, ← hbytes] at hbytes'
      have hwritten := Option.some.inj hbytes'
      have heq : truncated disk i dstFile = disk.data i := by
        rcases truncated_cases disk i dstFile with hnil | heq
        · rw [hnil, takenBytes_nil, List.take_nil] at hwritten
          rw [hnil, hwritten]
        · exact heq
      rw [← heq] at hwritten ⊢
      exact ⟨hends, rfl, hiff.mp hwritten⟩
    · rintro ⟨-, heq, hout⟩
      refine ⟨0, closeDestination w disk'' j, ⟨n, ?_⟩, fun _ => ⟨disk.data i, hcontent, ?_⟩⟩
      · intro fuel hfuel
        rw [hcall, hrun fuel hfuel]
        rfl
      · rw [← heq] at hout
        rw [hcopied, hiff.mpr hout, heq]
  · refine iff_of_false ?_ (fun h => hends h.1)
    rintro ⟨ret, final, ⟨m, hret⟩, -⟩
    have hfinal := hret m (Nat.le_refl m)
    rw [hcall, run_copyRound_of_error hends hcopy rfl] at hfinal
    cases hfinal

end Opening

/-- The call copies or fails, and ends, exactly if, when both files can be opened, the source
is read to its end without an error, is not the destination itself, unless it is empty, and
the destination takes and keeps all bytes. -/
theorem copiesOrFails_iff (b : SourceBehaviour) (w : DestinationBehaviour) (disk : Disk)
    (srcFile dstFile : String) :
    CopiesOrFails b w disk srcFile dstFile ↔
      ∀ i, disk.lookup srcFile = some i → disk.permits srcFile .rb = true →
        disk.permits dstFile .wb = true →
        ReadsToEnd b (disk.data i).length ∧
          (disk.lookup dstFile = some i → disk.data i = []) ∧
          WritesOut b w (disk.data i).length := by
  by_cases hopen : (disk.lookup srcFile).isSome = true ∧ disk.permits srcFile .rb = true ∧
      disk.permits dstFile .wb = true
  · obtain ⟨hsome, hread, hdst⟩ := hopen
    obtain ⟨i, hsrc⟩ := Option.isSome_iff_exists.mp hsome
    rw [copiesOrFails_open_iff hsrc hread hdst]
    constructor
    · rintro ⟨hends, heq, hout⟩ i' hsrc' - -
      rw [hsrc] at hsrc'
      cases hsrc'
      rw [heq] at hends
      refine ⟨hends, ?_, hout⟩
      intro hsame
      rw [← heq, truncated, if_pos hsame]
    · intro h
      obtain ⟨hends, hsame, hout⟩ := h i hsrc hread hdst
      have heq : truncated disk i dstFile = disk.data i := by
        unfold truncated
        split
        case isTrue hdup => exact (hsame hdup).symm
        case isFalse => rfl
      rw [heq]
      exact ⟨hends, rfl, hout⟩
  · obtain ⟨disk', hcall⟩ := fileCopyContent_not_open (b := b) (w := w) hopen
    refine iff_of_true ⟨-1, disk', ⟨0, fun fuel _ => hcall fuel⟩, ?_⟩ ?_
    · intro h
      cases h
    · intro i hsrc hread hdst
      exact absurd ⟨by rw [hsrc]; rfl, hread, hdst⟩ hopen

def oneFileDisk : Disk where
  lookup := fun path => if path = "a" then some 0 else none
  data := fun _ => [7]
  permits := fun _ _ => true
  next := 1
  fresh := by
    intro path inode h
    split at h
    · cases h
      exact Nat.one_pos
    · cases h

/-- Reading that gets as many bytes as it asks for, with an error at the given position. -/
def fullReads (failsAt : Option ℕ) : SourceBehaviour where
  chunk := fun _ => readBufMaxLen
  failsAt := failsAt
  chunk_pos := fun _ => by decide
  chunk_le := fun _ => Nat.le_refl _

/-- Writing that takes that many bytes at a time and loses none of them. -/
def writes (accepts : ℕ) : DestinationBehaviour := ⟨fun _ => accepts, 0⟩

/-- A one-byte file copied onto itself is emptied, one whose reads fail is never copied, and
on a full disk an empty file is left. -/
theorem copy_onto_itself_unreadable_or_full :
    ¬CopiesOrFails (fullReads none) (writes readBufMaxLen) oneFileDisk "a" "a" ∧
      ¬CopiesOrFails (fullReads (some 0)) (writes readBufMaxLen) oneFileDisk "a" "b" ∧
      ¬CopiesOrFails (fullReads none) (writes 0) oneFileDisk "a" "b" := by
  refine ⟨?_, ?_, ?_⟩
  · rw [copiesOrFails_open_iff (i := 0) rfl rfl rfl]
    rintro ⟨-, heq, -⟩
    cases heq
  · rw [copiesOrFails_open_iff (i := 0) rfl rfl rfl]
    rintro ⟨hends, -⟩
    exact absurd (hends 0 rfl) (Nat.not_lt_zero _)
  · rw [copiesOrFails_open_iff (i := 0) rfl rfl rfl]
    rintro ⟨-, -, haccepts, -⟩
    exact absurd (haccepts 0) (by decide)

end GeneralPurposeLibrary.Proofs
