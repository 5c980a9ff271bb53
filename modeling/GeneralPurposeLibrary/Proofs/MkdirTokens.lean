import GeneralPurposeLibrary.FileMkdir
import GeneralPurposeLibrary.Foundation.SeparatedText

/-!
# The segments that `fs_mkdirs` enters

The loop cuts the path in place, by writing a zero over a slash and the slash back. It enters
the tokens of the path one after the other, wherever its two pointers stand.
-/

namespace GeneralPurposeLibrary.Proofs
open CString FuelLoop SeparatedText

/-- The segments are entered in order, up to the first that cannot be. -/
def walk (env : FsCalls) (mode : UInt32) : List FileName → FsState → List FileName → FsState × Int32
  | _, s, [] => (s, 0)
  | fd, s, segment :: segments =>
    match enterSegment env mode fd segment s with
    | (s, .error res) => (s, res)
    | (s, .ok nextFd) => walk env mode nextFd s segments

/-- What `fs_mkdirs` does for these segments, from the call of `open` on. -/
def enterAll (env : FsCalls) (mode : UInt32) (tree : FsTree) (segments : List FileName) :
    Int32 × FsTree :=
  match env.openRoot ⟨tree, 0⟩ with
  | (s, .error e) => (-e, s.tree)
  | (s, .ok fd) =>
    let (s, res) := walk env mode fd s segments
    (res, s.tree)

/-- The segments of an absolute path. -/
def segments (path : List UInt8) : List FileName := tokens slash false [] path.tail

section Round

variable {env : FsCalls} {mode : UInt32} {front cur rest : List UInt8} {fd : List FileName}
  {sys : FsState}

/-- The pointers in a path of which `front` is done and `cur` is the start of a segment. -/
def pointers (front cur rest : List UInt8) (fd : List FileName) (sys : FsState) : MkdirsState :=
  ⟨front ++ cur ++ (rest ++ [0]), front.length, (front ++ cur).length, fd, sys⟩

lemma getElem?_at_length (l l' : List UInt8) (b : UInt8) : (l ++ b :: l')[l.length]? = some b := by
  rw [List.getElem?_append_right (Nat.le_refl _), Nat.sub_self]
  rfl

lemma set_at_length (l l' : List UInt8) (b c : UInt8) :
    (l ++ b :: l').set l.length c = l ++ c :: l' := by
  rw [List.set_append_right _ _ (Nat.le_refl _), Nat.sub_self]
  rfl

lemma mkdirsRound_end :
    mkdirsRound env mode (pointers front cur [] fd sys) = .inr (.ok (0, sys.tree)) := by
  have hget : (front ++ cur ++ ([] ++ [0]))[(front ++ cur).length]? = some 0 :=
    getElem?_at_length (front ++ cur) [] 0
  unfold mkdirsRound pointers
  simp only [hget, if_true]

lemma mkdirsRound_letter {b : UInt8} (hzero : b ≠ 0) (hslash : b ≠ slash) :
    mkdirsRound env mode (pointers front cur (b :: rest) fd sys) =
      .inl (pointers front (cur ++ [b]) rest fd sys) := by
  have hget : (front ++ cur ++ (b :: rest ++ [0]))[(front ++ cur).length]? = some b := by
    rw [List.cons_append]
    exact getElem?_at_length (front ++ cur) (rest ++ [0]) b
  have hnext : pointers front (cur ++ [b]) rest fd sys =
      ⟨front ++ cur ++ (b :: rest ++ [0]), front.length, (front ++ cur).length + 1, fd, sys⟩ := by
    unfold pointers
    simp only [List.append_assoc, List.length_append, List.length_singleton,
      List.cons_append, List.nil_append, Nat.add_assoc]
  unfold mkdirsRound
  rw [hnext]
  simp only [pointers, hget]
  rw [if_neg hzero, if_pos hslash]

lemma text_segment (hcur : 0 ∉ cur) :
    text (((front ++ cur ++ (slash :: rest ++ [0])).set (front ++ cur).length 0).drop
      front.length) = cur := by
  have hset := set_at_length (front ++ cur) (rest ++ [0]) slash 0
  rw [List.cons_append, hset, List.append_assoc, List.drop_left]
  exact Holds.text_eq ⟨hcur, rest ++ [0], rfl⟩

lemma set_set_slash :
    ((front ++ cur ++ (slash :: rest ++ [0])).set (front ++ cur).length 0).set
      (front ++ cur).length slash = front ++ cur ++ (slash :: rest ++ [0]) := by
  rw [List.set_set]
  exact set_at_length (front ++ cur) (rest ++ [0]) slash slash

/-- The slashes of which the next segment is free. -/
def slashes (rest : List UInt8) : List UInt8 := rest.takeWhile fun b => decide (b = slash)

def afterSlashes (rest : List UInt8) : List UInt8 := rest.dropWhile fun b => decide (b = slash)

lemma slashes_append_afterSlashes (rest : List UInt8) : slashes rest ++ afterSlashes rest = rest :=
  List.takeWhile_append_dropWhile

lemma slashes_concat_zero (rest : List UInt8) :
    (rest ++ [0]).takeWhile (fun b => decide (b = slash)) = slashes rest := by
  induction rest with
  | nil => rfl
  | cons b rest ih =>
    by_cases hb : b = slash
    · subst hb
      rw [List.cons_append, List.takeWhile_cons_of_pos rfl, ih]
      rfl
    · have hneg : ¬decide (b = slash) = true := by rwa [decide_eq_true_eq]
      rw [List.cons_append, List.takeWhile_cons, if_neg hneg, slashes, List.takeWhile_cons,
        if_neg hneg]

lemma mkdirsRound_slash (env : FsCalls) (mode : UInt32) (front rest : List UInt8)
    (fd : List FileName) (sys : FsState) (hcur : 0 ∉ cur) :
    mkdirsRound env mode (pointers front cur (slash :: rest) fd sys) =
      match enterSegment env mode fd cur sys with
      | (sys, .error res) => .inr (.ok (res, sys.tree))
      | (sys, .ok nextFd) =>
        .inl (pointers (front ++ cur ++ slash :: slashes rest) [] (afterSlashes rest) nextFd
          sys) := by
  have hget : (front ++ cur ++ (slash :: rest ++ [0]))[(front ++ cur).length]? = some slash := by
    rw [List.cons_append]
    exact getElem?_at_length (front ++ cur) (rest ++ [0]) slash
  have hskip : skipSlashes (front ++ cur ++ (slash :: rest ++ [0])) ((front ++ cur).length + 1) =
      (front ++ cur ++ slash :: slashes rest).length := by
    have hdrop : (front ++ cur ++ (slash :: rest ++ [0])).drop ((front ++ cur).length + 1) =
        rest ++ [0] := by
      rw [List.drop_append, List.drop_of_length_le (Nat.le_succ _), Nat.add_sub_cancel_left]
      rfl
    rw [skipSlashes, hdrop, slashes_concat_zero]
    simp only [List.length_append, List.length_cons]
    omega
  have hnext : ∀ nextFd sys',
      pointers (front ++ cur ++ slash :: slashes rest) [] (afterSlashes rest) nextFd sys' =
        ⟨front ++ cur ++ (slash :: rest ++ [0]), (front ++ cur ++ slash :: slashes rest).length,
          (front ++ cur ++ slash :: slashes rest).length, nextFd, sys'⟩ := by
    intro nextFd sys'
    have hbuf : front ++ cur ++ slash :: slashes rest ++ [] ++ (afterSlashes rest ++ [0]) =
        front ++ cur ++ (slash :: rest ++ [0]) := by
      conv_rhs => rw [← slashes_append_afterSlashes rest]
      simp only [List.append_nil, List.append_assoc, List.cons_append]
    rw [pointers, hbuf, List.append_nil]
  have hslash : slash ≠ 0 := by decide
  simp only [mkdirsRound, pointers, hget]
  rw [if_neg hslash, if_neg (fun h => h rfl), text_segment hcur, set_set_slash, hskip]
  cases enterSegment env mode fd cur sys with
  | mk sys' outcome =>
    cases outcome with
    | error res => rfl
    | ok nextFd => exact congrArg Sum.inl (hnext nextFd sys').symm

end Round

lemma length_afterSlashes_le (rest : List UInt8) : (afterSlashes rest).length ≤ rest.length := by
  have hlength := congrArg List.length (slashes_append_afterSlashes rest)
  rw [List.length_append] at hlength
  omega

lemma mem_of_mem_afterSlashes {rest : List UInt8} {b : UInt8} (h : b ∈ afterSlashes rest) :
    b ∈ rest := by
  rw [← slashes_append_afterSlashes rest]
  exact List.mem_append_right _ h

/-- The loop enters the tokens of what is left of the path. -/
lemma run_mkdirsRound (env : FsCalls) (mode : UInt32) {rest : List UInt8} (hrest : 0 ∉ rest)
    (front cur : List UInt8) (hcur : 0 ∉ cur) (fd : List FileName) (sys : FsState) (fuel : ℕ)
    (hfuel : rest.length < fuel) :
    run (mkdirsRound env mode) fuel (pointers front cur rest fd sys) =
      some (.ok ((walk env mode fd sys (tokens slash false cur rest)).2,
        (walk env mode fd sys (tokens slash false cur rest)).1.tree)) := by
  obtain ⟨fuel, rfl⟩ : ∃ k, fuel = k + 1 := ⟨fuel - 1, by omega⟩
  induction fuel generalizing rest front cur fd sys with
  | zero =>
    have hnil : rest = [] := List.length_eq_zero_iff.mp (by omega)
    subst hnil
    exact run_of_inr mkdirsRound_end 0
  | succ fuel ih =>
    cases rest with
    | nil => exact run_of_inr mkdirsRound_end _
    | cons b rest =>
      have hb : b ≠ 0 := by
        rintro rfl
        exact hrest List.mem_cons_self
      have htail : 0 ∉ rest := fun h => hrest (List.mem_cons_of_mem _ h)
      have hlength : rest.length < fuel + 1 := by
        rw [List.length_cons] at hfuel
        omega
      by_cases hslash : b = slash
      · subst hslash
        have hafter := length_afterSlashes_le rest
        have htokens : tokens slash false cur (slash :: rest) =
            cur :: tokens slash false [] (afterSlashes rest) := by
          rw [tokens, if_pos rfl, if_neg Bool.false_ne_true, tokens_dropWhile]
          rfl
        have hround := mkdirsRound_slash env mode front rest fd sys hcur
        rw [htokens, walk]
        cases hentered : enterSegment env mode fd cur sys with
        | mk sys' outcome =>
          rw [hentered] at hround
          cases outcome with
          | error res => exact run_of_inr hround _
          | ok nextFd =>
            rw [run_of_inl hround]
            refine ih ?_ _ [] List.not_mem_nil nextFd sys' (by omega)
            exact fun h => htail (mem_of_mem_afterSlashes h)
      · rw [run_of_inl (mkdirsRound_letter hb hslash), tokens, if_neg hslash]
        refine ih htail front (cur ++ [b]) ?_ fd sys hlength
        intro h
        rcases List.mem_append.mp h with h | h
        · exact hcur h
        · exact hb (List.mem_singleton.mp h).symm

/-- `fs_mkdirs` on an absolute path enters its segments. -/
theorem fsMkdirs_eq (env : FsCalls) (mode : UInt32) (tree : FsTree) {path : List UInt8}
    (habsolute : path.head? = some slash) (hzero : 0 ∉ path) {fuel : ℕ}
    (hfuel : path.length ≤ fuel) :
    fsMkdirs env fuel path mode tree = some (.ok (enterAll env mode tree (segments path))) := by
  obtain ⟨rest, rfl⟩ : ∃ rest, path = slash :: rest := List.head?_eq_some_iff.mp habsolute
  have hrest : 0 ∉ rest := fun h => hzero (List.mem_cons_of_mem _ h)
  have hpointers : ∀ fd sys, pointers [slash] [] rest fd sys =
      ⟨slash :: rest ++ [0], 1, 1, fd, sys⟩ := fun _ _ => rfl
  unfold fsMkdirs
  simp only
  rw [if_neg (fun h => h rfl)]
  unfold enterAll
  cases env.openRoot ⟨tree, 0⟩ with
  | mk s outcome =>
    cases outcome with
    | error e => rfl
    | ok fd =>
      simp only
      rw [← hpointers, run_mkdirsRound env mode hrest [slash] [] List.not_mem_nil fd s fuel hfuel]
      rfl

end GeneralPurposeLibrary.Proofs
