import GeneralPurposeLibrary.Proofs.MkdirChain

/-!
# Runs of slashes in the path of `fs_mkdirs`

Slashes in a row are skipped after a segment, so inside a path and at its end a run of them is
like one. At the start of the path nothing is skipped: the second slash ends an empty segment,
which is refused.
-/

namespace GeneralPurposeLibrary.Proofs
open PathTree SeparatedText

/-- Both calls end, return the same value and leave the same tree. -/
def SameOutcome (env : FsCalls) (mode : UInt32) (tree : FsTree) (path path' : List UInt8) : Prop :=
  ∃ result,
    (∃ n, ∀ fuel, n ≤ fuel → fsMkdirs env fuel path mode tree = some (.ok result)) ∧
    ∃ n, ∀ fuel, n ≤ fuel → fsMkdirs env fuel path' mode tree = some (.ok result)

/-- One of the components is a dot or two, and what stands in front of it are directories. -/
def StopsAtDots (tree : FsTree) (names : List FileName) : Prop :=
  ∃ before name after, names = before ++ name :: after ∧ (name = dot ∨ name = dotDot) ∧
    IsInner tree before

section Paths

variable {env : FsCalls} {mode : UInt32} {tree : FsTree} {path path' : List UInt8}

lemma sameOutcome_iff (habsolute : path.head? = some slash) (hzero : 0 ∉ path)
    (habsolute' : path'.head? = some slash) (hzero' : 0 ∉ path') :
    SameOutcome env mode tree path path' ↔
      enterAll env mode tree (segments path) = enterAll env mode tree (segments path') := by
  constructor
  · rintro ⟨result, ⟨n, h⟩, n', h'⟩
    have hleft := h (max n path.length) (Nat.le_max_left _ _)
    have hright := h' (max n' path'.length) (Nat.le_max_left _ _)
    rw [fsMkdirs_eq env mode tree habsolute hzero (Nat.le_max_right _ _)] at hleft
    rw [fsMkdirs_eq env mode tree habsolute' hzero' (Nat.le_max_right _ _)] at hright
    have hresult := Except.ok.inj (Option.some.inj hleft)
    have hresult' := Except.ok.inj (Option.some.inj hright)
    rw [hresult, hresult']
  · intro heq
    refine ⟨_, ⟨path.length, fun fuel h => fsMkdirs_eq env mode tree habsolute hzero h⟩,
      path'.length, ?_⟩
    intro fuel hfuel
    rw [heq]
    exact fsMkdirs_eq env mode tree habsolute' hzero' hfuel

lemma exists_collapse (rest : List UInt8) :
    ∃ rest', collapse slash (slash :: rest) = slash :: rest' ∧ NoDouble slash (slash :: rest') := by
  obtain ⟨rest', hcollapse⟩ : ∃ rest', collapse slash (slash :: rest) = slash :: rest' :=
    collapse_cons slash rest
  refine ⟨rest', hcollapse, ?_⟩
  rw [← hcollapse]
  exact noDouble_collapse (slash :: rest)

lemma segments_collapse (rest : List UInt8) :
    segments (collapse slash (slash :: rest)) = tokens slash true [] rest := by
  obtain ⟨rest', hcollapse, hdouble⟩ := exists_collapse rest
  have htokens : tokens slash true [] (collapse slash (slash :: rest)) =
      tokens slash true [] (slash :: rest) := tokens_collapse true [] (slash :: rest)
  rw [hcollapse, tokens, if_pos rfl, if_pos rfl, tokens, if_pos rfl, if_pos rfl] at htokens
  rw [hcollapse, segments, List.tail_cons, ← tokens_skip_of_head hdouble.head, htokens]

lemma segments_collapse_of_single {rest : List UInt8} (h : rest.head? ≠ some slash) :
    segments (slash :: rest) = segments (collapse slash (slash :: rest)) := by
  rw [segments_collapse, tokens_skip_of_head h]
  rfl

lemma segments_collapse_eq_parentNames (rest : List UInt8) :
    segments (collapse slash (slash :: rest)) = parentNames (collapse slash (slash :: rest)) := by
  obtain ⟨rest', hcollapse, hdouble⟩ := exists_collapse rest
  rw [hcollapse]
  exact tokens_eq_pieces hdouble.of_cons

lemma ne_nil_of_mem_parentNames {rest : List UInt8} {name : FileName}
    (h : name ∈ parentNames (collapse slash (slash :: rest))) : name ≠ [] := by
  obtain ⟨rest', hcollapse, hdouble⟩ := exists_collapse rest
  rw [hcollapse] at h
  exact ne_nil_of_mem_pieces hdouble.of_cons (Or.inr hdouble.head) h

end Paths

section Refused

variable {env : FsCalls} {mode : UInt32} {fd : List FileName} {name : FileName} {s : FsState}

lemma openat_tree (env : FsCalls) (fd : List FileName) (name : FileName) (s : FsState) :
    (env.openat fd name s).1.tree = s.tree := by
  unfold FsCalls.openat
  cases hfails : env.fails s.calls with
  | some e => rw [attempt_of_some hfails]
  | none =>
    rw [attempt_of_none hfails]
    by_cases hfd : IsInner s.tree fd
    · rw [if_pos hfd]
      cases s.tree.node (fd ++ [name]) with
      | none => rfl
      | some node => cases node <;> rfl
    · rw [if_neg hfd]

lemma stepInto_tree (env : FsCalls) (fd : List FileName) (name : FileName) (s : FsState) :
    (stepInto env fd name s).1.tree = s.tree := by
  have hopen := openat_tree env fd name s
  unfold stepInto
  cases houtcome : env.openat fd name s with
  | mk s₁ outcome =>
    rw [houtcome] at hopen
    cases outcome <;> exact hopen

lemma enterSegment_not_directory (mode : UInt32) (hquiet : ∀ n, env.fails n = none)
    (hname : ValidName name) (hfd : IsInner s.tree fd) (hdir : ¬IsInner s.tree (fd ++ [name])) :
    (∃ res, res ≠ -einval ∧
        enterSegment env mode fd name s = (⟨s.tree, s.calls + 1⟩, .error res)) ∨
      (s.tree.node (fd ++ [name]) = none ∧
        ((enterSegment env mode fd name s).1.tree.node (fd ++ [name])).isSome = true) := by
  cases hnode : s.tree.node (fd ++ [name]) with
  | some node =>
    left
    rw [enterSegment, if_neg hname, fstatat_of_some (hquiet _) hfd hnode]
    cases node with
    | directory m =>
      exfalso
      apply hdir
      unfold IsInner
      rw [hnode]
      rfl
    | file bytes => exact ⟨-enotdir, by decide, rfl⟩
    | symlink target => exact ⟨-eloop, by decide, rfl⟩
  | none =>
    right
    refine ⟨rfl, ?_⟩
    have hmkdir := mkdirat_of_none mode (s := ⟨s.tree, s.calls + 1⟩) (hquiet _) hfd hnode
    rw [enterSegment, if_neg hname, fstatat_of_none (hquiet _) hfd hnode]
    simp only [if_true]
    rw [hmkdir]
    simp only
    rw [stepInto_tree]
    exact isSome_of_isInner (isInner_add env mode hfd hnode)

lemma isSome_walk_cons (names : List FileName) {path : List FileName} (hfd : IsInner s.tree fd)
    (h : ((enterSegment env mode fd name s).1.tree.node path).isSome = true) :
    ((walk env mode fd s (name :: names)).1.tree.node path).isSome = true := by
  have hentered := enterSegment_entered env mode name hfd
  rw [walk]
  cases hstep : enterSegment env mode fd name s with
  | mk s₁ outcome =>
    rw [hstep] at hentered h
    cases outcome with
    | error res => exact h
    | ok nextFd =>
      obtain ⟨-, rfl, hinner, -⟩ := hentered
      obtain ⟨made, -, hgrown⟩ := walk_grown env mode names hinner
      obtain ⟨node, hnode⟩ := Option.isSome_iff_exists.mp h
      exact Option.isSome_iff_exists.mpr ⟨node, hgrown.kept hnode⟩

/-- An invalid name below directories that are there. -/
def RefusedName (tree : FsTree) (fd names : List FileName) : Prop :=
  ∃ before name after, names = before ++ name :: after ∧ ¬ValidName name ∧
    IsInner tree (fd ++ before)

lemma not_refusedName_nil {tree : FsTree} : ¬RefusedName tree fd [] := by
  rintro ⟨before, name, after, hnames, -⟩
  exact absurd hnames.symm (List.append_ne_nil_of_right_ne_nil before (List.cons_ne_nil _ _))

lemma refusedName_cons_iff {tree : FsTree} {names : List FileName} (hname : ValidName name) :
    RefusedName tree fd (name :: names) ↔ RefusedName tree (fd ++ [name]) names := by
  constructor
  · rintro ⟨before, other, after, hnames, hother, hbefore⟩
    cases before with
    | nil =>
      cases hnames
      exact absurd hname hother
    | cons first before =>
      rw [List.cons_append] at hnames
      cases hnames
      refine ⟨before, other, after, rfl, hother, ?_⟩
      rwa [← List.append_cons]
  · rintro ⟨before, other, after, rfl, hother, hbefore⟩
    refine ⟨name :: before, other, after, rfl, hother, ?_⟩
    rwa [List.append_cons]

lemma walk_invalid (hname : ¬ValidName name) (names : List FileName) :
    walk env mode fd s (name :: names) = (s, -einval) := by
  have hbad : name = dotDot ∨ name = dot ∨ name = [] := not_not.mp hname
  rw [walk, enterSegment, if_pos hbad]

lemma not_refused_of_not_directory (hquiet : ∀ n, env.fails n = none) (hname : ValidName name)
    (hfd : IsInner s.tree fd) (hdir : ¬IsInner s.tree (fd ++ [name])) (names : List FileName) :
    ¬((walk env mode fd s (name :: names)).2 = -einval ∧
      (walk env mode fd s (name :: names)).1.tree = s.tree) := by
  rintro ⟨hres, htree⟩
  rcases enterSegment_not_directory mode hquiet hname hfd hdir with
    ⟨res, hne, hstep⟩ | ⟨hnone, hsome⟩
  · rw [walk, hstep] at hres
    exact hne hres
  · have hkept := isSome_walk_cons names hfd hsome
    rw [htree, hnone] at hkept
    cases hkept

/-- A walk without failures is refused with nothing created exactly at an invalid name below
directories that are there. -/
lemma walk_refused_iff (mode : UInt32) (hquiet : ∀ n, env.fails n = none)
    {names : List FileName} (hfd : IsInner s.tree fd) :
    ((walk env mode fd s names).2 = -einval ∧ (walk env mode fd s names).1.tree = s.tree) ↔
      RefusedName s.tree fd names := by
  induction names generalizing fd s with
  | nil =>
    refine iff_of_false ?_ not_refusedName_nil
    rintro ⟨hres, -⟩
    have hne : (0 : Int32) ≠ -einval := by decide
    exact hne hres
  | cons name names ih =>
    by_cases hname : ValidName name
    · rw [refusedName_cons_iff hname]
      by_cases hdir : IsInner s.tree (fd ++ [name])
      · have hwalk : walk env mode fd s (name :: names) =
            walk env mode (fd ++ [name]) ⟨s.tree, s.calls + 2⟩ names := by
          rw [walk, enterSegment_quiet mode hquiet hname hfd hdir]
        rw [hwalk]
        exact ih (s := ⟨s.tree, s.calls + 2⟩) hdir
      · refine iff_of_false (not_refused_of_not_directory hquiet hname hfd hdir names) ?_
        rintro ⟨before, other, after, -, -, hbefore⟩
        exact hdir (isInner_of_append hbefore)
    · rw [walk_invalid hname]
      refine iff_of_true ⟨rfl, rfl⟩ ⟨[], name, names, rfl, hname, ?_⟩
      rwa [List.append_nil]

end Refused

section DoubleSlash

variable {env : FsCalls} {mode : UInt32} {tree : FsTree}

lemma openRoot_quiet (hquiet : ∀ n, env.fails n = none) :
    env.openRoot ⟨tree, 0⟩ = (⟨tree, 1⟩, .ok []) := attempt_of_none (hquiet 0)

lemma enterAll_double (hquiet : ∀ n, env.fails n = none) (rest : List UInt8) :
    enterAll env mode tree (segments (slash :: slash :: rest)) = (-einval, tree) := by
  have hsegments : segments (slash :: slash :: rest) = [] :: tokens slash true [] rest := by
    rw [segments, List.tail_cons, tokens, if_pos rfl, if_neg Bool.false_ne_true]
  rw [enterAll_of_open (openRoot_quiet hquiet), hsegments, walk, enterSegment,
    if_pos (Or.inr (Or.inr rfl))]

lemma enterAll_refused_iff (mode : UInt32) (hquiet : ∀ n, env.fails n = none)
    (rest : List UInt8) :
    enterAll env mode tree (segments (collapse slash (slash :: rest))) = (-einval, tree) ↔
      StopsAtDots tree (parentNames (collapse slash (slash :: rest))) := by
  rw [enterAll_of_open (openRoot_quiet hquiet), segments_collapse_eq_parentNames, Prod.mk.injEq,
    walk_refused_iff mode (s := ⟨tree, 1⟩) hquiet tree.root]
  constructor
  · rintro ⟨before, name, after, hnames, hname, hbefore⟩
    have hmem : name ∈ parentNames (collapse slash (slash :: rest)) := by
      rw [hnames]
      exact List.mem_append_right _ List.mem_cons_self
    refine ⟨before, name, after, hnames, ?_, hbefore⟩
    rcases not_not.mp hname with h | h | h
    · exact Or.inr h
    · exact Or.inl h
    · exact absurd h (ne_nil_of_mem_parentNames hmem)
  · rintro ⟨before, name, after, hnames, hname, hbefore⟩
    refine ⟨before, name, after, hnames, ?_, hbefore⟩
    intro hvalid
    rcases hname with h | h
    · exact hvalid (Or.inr (Or.inl h))
    · exact hvalid (Or.inl h)

lemma sameOutcome_collapse_iff {rest : List UInt8} (hzero : 0 ∉ slash :: rest) :
    SameOutcome env mode tree (slash :: rest) (collapse slash (slash :: rest)) ↔
      enterAll env mode tree (segments (slash :: rest)) =
        enterAll env mode tree (segments (collapse slash (slash :: rest))) := by
  obtain ⟨rest', hcollapse, -⟩ := exists_collapse rest
  have habsolute : (collapse slash (slash :: rest)).head? = some slash := by
    rw [hcollapse]
    rfl
  exact sameOutcome_iff rfl hzero habsolute (fun h => hzero (mem_of_mem_collapse h))

lemma sameOutcome_collapse_of_single (env : FsCalls) {rest : List UInt8}
    (hzero : 0 ∉ slash :: rest) (hsingle : ¬[slash, slash] <+: slash :: rest) :
    SameOutcome env mode tree (slash :: rest) (collapse slash (slash :: rest)) := by
  have hhead : rest.head? ≠ some slash := by
    intro h
    obtain ⟨tail, rfl⟩ : ∃ tail, rest = slash :: tail := List.head?_eq_some_iff.mp h
    exact hsingle ⟨tail, rfl⟩
  rw [sameOutcome_collapse_iff hzero, ← segments_collapse_of_single hhead]

lemma sameOutcome_collapse_double_iff (mode : UInt32) (hquiet : ∀ n, env.fails n = none)
    {rest : List UInt8} (hzero : 0 ∉ slash :: slash :: rest) :
    SameOutcome env mode tree (slash :: slash :: rest) (collapse slash (slash :: slash :: rest)) ↔
      StopsAtDots tree (parentNames (collapse slash (slash :: slash :: rest))) := by
  rw [sameOutcome_collapse_iff hzero, enterAll_double hquiet, eq_comm,
    enterAll_refused_iff mode hquiet]

end DoubleSlash

/-- Runs of slashes do not matter in a path that starts with a single one, whatever fails. A
path that starts with two is treated as the collapsed one exactly when that is refused too, for
a component that is a dot or two below directories that exist. -/
theorem fs_mkdirs_collapse_iff (mode : UInt32) (tree : FsTree) (path : List UInt8)
    (habsolute : path.head? = some slash) (hzero : 0 ∉ path) :
    (∀ env : FsCalls, ¬[slash, slash] <+: path →
        SameOutcome env mode tree path (collapse slash path)) ∧
      ∀ env : FsCalls, (∀ n, env.fails n = none) →
        (SameOutcome env mode tree path (collapse slash path) ↔
          ¬[slash, slash] <+: path ∨ StopsAtDots tree (parentNames (collapse slash path))) := by
  obtain ⟨rest, rfl⟩ : ∃ rest, path = slash :: rest := List.head?_eq_some_iff.mp habsolute
  refine ⟨fun env hsingle => sameOutcome_collapse_of_single env hzero hsingle, ?_⟩
  intro env hquiet
  by_cases hsingle : [slash, slash] <+: slash :: rest
  · obtain ⟨tail, htail⟩ := hsingle
    obtain rfl : rest = slash :: tail := (List.cons.inj htail).2.symm
    rw [sameOutcome_collapse_double_iff mode hquiet hzero]
    constructor
    · exact Or.inr
    · exact fun h => h.resolve_left (fun hne => hne ⟨tail, rfl⟩)
  · exact iff_of_true (sameOutcome_collapse_of_single env hzero hsingle) (Or.inl hsingle)

theorem fs_mkdirs_collapse_inside :
    SameOutcome quietCalls 448 rootOnly [47, 97, 47, 47, 98] [47, 97, 47, 98] := by
  have hsingle : ¬[slash, slash] <+: [47, 97, 47, 47, 98] := by decide
  exact (fs_mkdirs_collapse_iff 448 rootOnly [47, 97, 47, 47, 98] rfl (by decide)).1 quietCalls
    hsingle

/-- `//a/b` is refused, where `/a/b` creates the directory `a`. -/
theorem fs_mkdirs_refuses_double_slash :
    ¬SameOutcome quietCalls 448 rootOnly [47, 47, 97, 47, 98] [47, 97, 47, 98] := by
  intro h
  have hdots := (sameOutcome_collapse_double_iff 448 (fun _ => rfl) (by decide)).mp h
  obtain ⟨before, name, after, hnames, hname, -⟩ := hdots
  have hparents : parentNames (collapse slash [slash, slash, 97, 47, 98]) = [[97]] := by decide
  have hmem : name ∈ parentNames (collapse slash [slash, slash, 97, 47, 98]) := by
    rw [hnames]
    exact List.mem_append_right _ List.mem_cons_self
  rw [hparents] at hmem
  rw [List.mem_singleton.mp hmem] at hname
  exact absurd hname (by decide)

end GeneralPurposeLibrary.Proofs
